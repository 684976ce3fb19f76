import StreamTrace.Proofs.Machine.Extensions
import StreamTrace.Proofs.Machine.LaunchedMachine

/-!
# Launched machines are equipped

Launching a program makes objects, tells the variables of one method and begins two frames. None of
these takes anything away that a debugger needs.
-/

namespace StreamTrace

namespace Vm

/-- A machine that was equipped is extended, and so it is still equipped. -/
def StaysEquipped (vm vm' : Vm) : Prop := vm.Equipped → vm.Extended vm'

instance : Allots StaysEquipped where
  refl _ h := .refl h
  trans h h' hvm := (h hvm).trans (h' (h hvm).equipped)
  alloc _ e h := extended_make h e

theorem Equipped.advance {vm : Vm} (h : vm.Equipped) {n : Nat} (hn : vm.nextId ≤ n) :
    { vm with nextId := n : Vm }.Equipped where
  null := h.null
  objects he := Nat.le_trans (h.objects he) hn
  types c hc := Nat.le_trans (h.types c hc) hn
  distinct := h.distinct
  arrays := h.arrays
  methods := h.methods
  stands := h.stands
  library := h.library
  program := h.program
  helpers := h.helpers
  loader := h.loader
  present := h.present
  bytes := h.bytes

theorem Equipped.inMain {vm : Vm} (h : vm.Equipped) (info : VariableInfo) (this : ObjectId)
    (v : Value) : (vm.inMain info this v).Equipped := by
  have hknown := h.reveal (vm.appClass "Main")
    (Table.set · (vm.mainMethod "run" "()V") [StreamProgram.thisVariable, info])
  exact (hknown.advance (n := vm.nextId + 2) (Nat.le_add_right _ _)).of_eq rfl rfl rfl rfl

end Vm

theorem StreamProgram.launch_equipped (p : StreamProgram) : p.launch.vm.Equipped := by
  obtain ⟨filled, this, v, hallots, hvm⟩ := p.launch_vm
  rw [hvm]
  exact (hallots Vm.StaysEquipped Vm.booted_equipped).equipped.inMain _ this v

end StreamTrace
