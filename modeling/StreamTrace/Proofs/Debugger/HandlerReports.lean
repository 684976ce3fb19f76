import StreamTrace.Proofs.Debugger.PackedSides

/-!
# What the handlers report

A handler packs what it saw into arrays of the debuggee: the two sides of its call, and for the
consuming call its result and a payload of its kind. Each relation below says what such an array
holds; it goes on holding in a machine that is extended.
-/

namespace StreamTrace

open Routine Vm Bridge

/-- What entered and what left a call, each with its time. -/
structure StageRecord where
  before : List (Int32 × Element)
  after : List (Int32 × Element)

namespace StageHandler

/-- Where the elements that enter the call are recorded, with their type. -/
def sideBefore : StageHandler → Option ElementType × Option Value
  | source _ _ => (none, none)
  | intermediate k => (k.typeBefore, k.before)
  | parallel k => (k.typeBefore, k.before)
  | terminal k _ => (k.typeBefore, k.before)
  | matching element _ maps _ => (element, maps.map (·.1))
  | optional k _ => (k.typeBefore, k.before)
  | collection k _ => (k.typeBefore, k.before)

/-- Where the elements that leave the call are recorded, with their type. -/
def sideAfter : StageHandler → Option ElementType × Option Value
  | source _ _ => (none, none)
  | intermediate k => (k.typeAfter, k.after)
  | parallel k => (k.typeAfter, k.after)
  | terminal k _ => (k.typeAfter, k.after)
  | matching element _ maps _ => (element, maps.map (·.2))
  | optional k _ => (k.typeAfter, k.after)
  | collection k _ => (k.typeAfter, k.after)

/-- The result of the consuming call, if it was seen. -/
def noted? : StageHandler → Option Value
  | terminal _ result => result
  | matching _ _ _ result => result
  | optional _ result => result
  | collection _ result => result
  | _ => none

end StageHandler

namespace Vm

variable {vm vm' : Vm} {h : StageHandler} {r : StageRecord} {v : Value}

/-- The handler's maps hold this record. -/
def Records (vm : Vm) (h : StageHandler) (r : StageRecord) : Prop :=
  vm.Recorded h.sideBefore.1 h.sideBefore.2 r.before ∧
    vm.Recorded h.sideAfter.1 h.sideAfter.2 r.after

theorem Records.extended (hr : vm.Records h r) (ht : vm.Extended vm') : vm'.Records h r :=
  ⟨hr.1.extended ht, hr.2.extended ht⟩

/-- An array of the two sides of the call. -/
def Packs (vm : Vm) (h : StageHandler) (r : StageRecord) (v : Value) : Prop :=
  ∃ before after, vm.HasArray ClassName.object v [before, after] ∧
    vm.PacksSide (h.sideBefore.1.getD .object) r.before before ∧
    vm.PacksSide (h.sideAfter.1.getD .object) r.after after

theorem Packs.extended (hp : vm.Packs h r v) (ht : vm.Extended vm') : vm'.Packs h r v := by
  obtain ⟨before, after, harray, hbefore, hafter⟩ := hp
  exact ⟨before, after, harray.extended ht, hbefore.extended ht, hafter.extended ht⟩

theorem Packs.isReference (hp : vm.Packs h r v) : v.isReference = true := by
  obtain ⟨before, after, harray, -⟩ := hp
  exact harray.isReference

/-- What the consuming call tells besides its two sides, when the clock stands at `now`. -/
inductive HasPayload (vm : Vm) (now : Int32) : StageHandler → TerminalPayload → Prop
  | terminal {k : Peek} {result : Option Value} : HasPayload vm now (.terminal k result) .none
  | matched {element : Option ElementType} {predicateType : String}
    {maps : Option (Value × Value)} {result : Option Value} {t : TraceValue}
    (ht : vm.Reads (result.getD .void) t) :
    HasPayload vm now (.matching element predicateType maps result) (.matched t)
  | empty {k : Peek} {result : Option Value} {element : ElementType}
    (ho : vm.HoldsOptional element result none) :
    HasPayload vm now (.optional k result) (.optional false .null)
  | found {k : Peek} {result : Option Value} {element : ElementType} {e : Element}
    {t : TraceValue} (ho : vm.HoldsOptional element result (some e))
    (ht : vm.Displays element e t) : HasPayload vm now (.optional k result) (.optional true t)
  | collected {k : Peek} {result : Option Value} :
    HasPayload vm now (.collection k result) (.collection now)

theorem HasPayload.extended {now : Int32} {payload : TerminalPayload}
    (hp : vm.HasPayload now h payload)
    (ht : vm.Extended vm') : vm'.HasPayload now h payload := by
  cases hp with
  | terminal => exact .terminal
  | matched hread => exact .matched (hread.extended ht)
  | empty ho => exact .empty (ho.extended ht)
  | found ho hshown => exact .found (ho.extended ht) (hshown.extended ht)
  | collected => exact .collected

/-- The array of a payload and of what `sides` is about. -/
inductive PacksPayload (vm : Vm) (sides : Value → Prop) :
    HandlerKind → TerminalPayload → Value → Prop
  | terminal {v : Value} (hs : sides v) : PacksPayload vm sides .peekTerminal .none v
  | matched {v info one x : Value} {t : TraceValue}
    (harray : vm.HasArray ClassName.object v [info, one]) (hs : sides info)
    (hone : vm.PacksOne x one) (ht : vm.Reads x t) :
    PacksPayload vm sides .matchShortCircuit (.matched t) v
  | optional {v info content present value x : Value} {held : Bool} {t : TraceValue}
    (harray : vm.HasArray ClassName.object v [info, content]) (hs : sides info)
    (hcontent : vm.HasArray ClassName.object content [present, value])
    (hpresent : vm.PacksOne (.boolean held) present) (hvalue : vm.PacksOne x value)
    (hheld : held = true → vm.Reads x t) (hempty : held = false → t = .null) :
    PacksPayload vm sides .optionalProducing (.optional held t) v
  | collected {v info time : Value} {now : Int32}
    (harray : vm.HasArray ClassName.object v [info, time]) (hs : sides info)
    (htime : vm.HasArray "int" time [.int now]) :
    PacksPayload vm sides .toCollection (.collection now) v

theorem PacksPayload.extended {kind : HandlerKind} {payload : TerminalPayload}
    (hp : vm.PacksPayload (vm.Packs h r) kind payload v) (ht : vm.Extended vm') :
    vm'.PacksPayload (vm'.Packs h r) kind payload v := by
  cases hp with
  | terminal hs => exact .terminal (hs.extended ht)
  | matched harray hs hone hread =>
      exact .matched (harray.extended ht) (hs.extended ht) (hone.extended ht) (hread.extended ht)
  | optional harray hs hcontent hpresent hvalue hheld hempty =>
      exact .optional (harray.extended ht) (hs.extended ht) (hcontent.extended ht)
        (hpresent.extended ht)
        (hvalue.extended ht) (fun held => (hheld held).extended ht) hempty
  | collected harray hs htime =>
      exact .collected (harray.extended ht) (hs.extended ht) (htime.extended ht)

theorem PacksPayload.isReference {kind : HandlerKind} {payload : TerminalPayload}
    (hp : vm.PacksPayload (vm.Packs h r) kind payload v) : v.isReference = true := by
  cases hp with
  | terminal hs => exact hs.isReference
  | matched harray => exact harray.isReference
  | optional harray => exact harray.isReference
  | collected harray => exact harray.isReference

/-- The array that the consuming call reports. -/
def ReportsLast (vm : Vm) (now : Int32) (h : StageHandler) (r : StageRecord) (v : Value) : Prop :=
  ∃ info wrapped payload, vm.HasArray ClassName.object v [info, wrapped] ∧
    vm.PacksOne (resultSlot h.noted?) wrapped ∧ vm.HasPayload now h payload ∧
    vm.PacksPayload (vm.Packs h r) h.kind payload info

end Vm

variable {p : Probe} {s : BridgeState} {vm vm' : Vm} {r : StageRecord}

theorem packSides_achieves (hready : p.bridge.Ready s vm)
    (hutils : Resolvable vm HelperClass.utils.name) {h : StageHandler}
    (hrecords : vm.Records h r) :
    p.bridge.Achieves (do
      let before ← p.packSide h.sideBefore.1 h.sideBefore.2
      let after ← p.packSide h.sideAfter.1 h.sideAfter.2
      p.bridge.array [before, after]) s vm fun v vm' => vm'.Packs h r v := by
  refine (p.packSide_achieves hready hutils hrecords.1).bind ?_
  intro before s₁ vm₁ hready₁ hextended₁ hbefore
  refine (p.packSide_achieves hready₁ (hutils.extended hextended₁)
    (hrecords.2.extended hextended₁)).bind ?_
  intro after s₂ vm₂ hready₂ hextended₂ hafter
  refine (array_pair_achieves hready₂ hbefore.isReference hafter.isReference).mono ?_
  intro v vm₃ hextended₃ harray
  exact ⟨before, after, harray, (hbefore.extended hextended₂).extended hextended₃,
    hafter.extended hextended₃⟩

/-- A call that passes the stream on reports its two sides. -/
theorem result_achieves_between (hready : p.bridge.Ready s vm)
    (hutils : Resolvable vm HelperClass.utils.name) {h : StageHandler} {k : Peek}
    (hh : h = .intermediate k ∨ h = .parallel k) (hrecords : vm.Records h r) :
    p.bridge.Achieves (h.result p) s vm fun v vm' => ∃ report, v = some report ∧
      vm'.Packs h r report := by
  have hsides := packSides_achieves hready hutils hrecords
  rcases hh with rfl | rfl
  all_goals
    refine Achieves.bind hsides ?_
    intro report s₁ vm₁ hready₁ _ hpacks
    exact achieves_pure hready₁ ⟨report, rfl, hpacks⟩

section

variable {now : Int32} {k : Peek} {result : Option Value} (hready : p.bridge.Ready s vm)
  (hutils : Resolvable vm HelperClass.utils.name)

include hready hutils

theorem result_achieves_terminal (hrecords : vm.Records (.terminal k result) r) :
    p.bridge.Achieves ((StageHandler.terminal k result).result p) s vm fun v vm' =>
      ∃ report, v = some report ∧ vm'.ReportsLast now (.terminal k result) r report := by
  refine Achieves.bind (packSides_achieves hready hutils hrecords) ?_
  intro info s₁ vm₁ hready₁ hextended₁ hpacks
  refine (p.packResult_achieves hready₁ result).bind ?_
  intro wrapped s₂ vm₂ hready₂ hextended₂ hwrapped
  refine (array_pair_achieves hready₂ hpacks.isReference hwrapped.isReference).bind ?_
  intro report s₃ vm₃ hready₃ hextended₃ harray
  exact achieves_pure hready₃
    ⟨report, rfl, info, wrapped, .none, harray, hwrapped.extended hextended₃,
    .terminal, .terminal ((hpacks.extended hextended₂).extended hextended₃)⟩

theorem result_achieves_matching {element : Option ElementType} {predicateType : String}
    {maps : Option (Value × Value)}
    (hrecords : vm.Records (.matching element predicateType maps result) r) {t : TraceValue}
    (ht : vm.Reads (result.getD .void) t) :
    p.bridge.Achieves ((StageHandler.matching element predicateType maps result).result p) s vm
      fun v vm' => ∃ report, v = some report ∧
        vm'.ReportsLast now (.matching element predicateType maps result) r report := by
  refine (p.packSide_achieves hready hutils hrecords.1).bind ?_
  intro before s₁ vm₁ hready₁ hextended₁ hbefore
  refine (p.packSide_achieves hready₁ (hutils.extended hextended₁)
    (hrecords.2.extended hextended₁)).bind ?_
  intro after s₂ vm₂ hready₂ hextended₂ hafter
  refine (array_pair_achieves hready₂ hbefore.isReference hafter.isReference).bind ?_
  intro info s₃ vm₃ hready₃ hextended₃ hinfo
  refine (p.packResult_achieves hready₃ result).bind ?_
  intro wrapped s₄ vm₄ hready₄ hextended₄ hwrapped
  refine (array_pair_achieves hready₄ hinfo.isReference hwrapped.isReference).bind ?_
  intro payload s₅ vm₅ hready₅ hextended₅ hpayload
  refine (array_pair_achieves hready₅ hpayload.isReference hwrapped.isReference).bind ?_
  intro report s₆ vm₆ hready₆ hextended₆ harray
  have hbehind := (hextended₃.trans hextended₄).trans (hextended₅.trans hextended₆)
  have hextended := (hextended₁.trans hextended₂).trans hbehind
  have hwrapped' := hwrapped.extended (hextended₅.trans hextended₆)
  have hpacks : vm₆.Packs (.matching element predicateType maps result) r info :=
    ⟨before, after, hinfo.extended (hextended₄.trans (hextended₅.trans hextended₆)),
      (hbefore.extended hextended₂).extended hbehind, hafter.extended hbehind⟩
  exact achieves_pure hready₆ ⟨report, rfl, payload, wrapped, .matched t, harray, hwrapped',
    .matched (ht.extended hextended),
    .matched (hpayload.extended hextended₆) hpacks hwrapped' (ht.extended hextended).resultSlot⟩

theorem result_achieves_optional (hrecords : vm.Records (.optional k result) r)
    {element : ElementType} {content : Option Element}
    (hholds : vm.HoldsOptional element result content) :
    p.bridge.Achieves ((StageHandler.optional k result).result p) s vm fun v vm' =>
      ∃ report, v = some report ∧ vm'.ReportsLast now (.optional k result) r report := by
  refine Achieves.bind (packSides_achieves hready hutils hrecords) ?_
  intro info s₁ vm₁ hready₁ hextended₁ hpacks
  refine (p.packResult_achieves hready₁ result).bind ?_
  intro wrapped s₂ vm₂ hready₂ hextended₂ hwrapped
  have hholds₂ := hholds.extended (hextended₁.trans hextended₂)
  refine (p.contentOfOptional_achieves hready₂ hholds₂).bind ?_
  rintro ⟨_, x⟩ s₃ vm₃ hready₃ hextended₃ ⟨rfl, hx, hpresents⟩
  dsimp only
  have hbool : Value.boolean content.isSome ≠ .void := nofun
  refine (array_one_achieves hready₃ hbool).bind ?_
  intro present s₄ vm₄ hready₄ hextended₄ hpresent
  refine (array_one_achieves hready₄ hx).bind ?_
  intro value s₅ vm₅ hready₅ hextended₅ hvalue
  have hpresent' : vm₄.PacksOne (.boolean content.isSome) present := hpresent
  have hvalue' : vm₅.PacksOne x value := hvalue
  refine (array_pair_achieves hready₅ hpresent'.isReference hvalue'.isReference).bind ?_
  intro both s₆ vm₆ hready₆ hextended₆ hboth
  refine (array_pair_achieves hready₆ hpacks.isReference hboth.isReference).bind ?_
  intro payload s₇ vm₇ hready₇ hextended₇ hpayload
  refine (array_pair_achieves hready₇ hpayload.isReference hwrapped.isReference).bind ?_
  intro report s₈ vm₈ hready₈ hextended₈ harray
  have hlast := hextended₇.trans hextended₈
  have hbehind := (hextended₄.trans hextended₅).trans (hextended₆.trans hlast)
  have hextended := (hextended₂.trans hextended₃).trans hbehind
  have hpacks' := hpacks.extended hextended
  have hholds' := hholds₂.extended (hextended₃.trans hbehind)
  have hwrapped' := hwrapped.extended (hextended₃.trans hbehind)
  have hpresent'' := hpresent'.extended (hextended₅.trans (hextended₆.trans hlast))
  have hvalue'' := hvalue'.extended (hextended₆.trans hlast)
  cases content with
  | none =>
      exact achieves_pure hready₈ ⟨report, rfl, payload, wrapped, .optional false .null, harray,
        hwrapped', .empty hholds', .optional (hpayload.extended hextended₈) hpacks'
          (hboth.extended hlast) hpresent'' hvalue'' nofun fun _ => rfl⟩
  | some e =>
      have hpresents' := (hpresents e rfl).extended hbehind
      obtain ⟨t, ht⟩ := hpresents'.reads
      exact achieves_pure hready₈ ⟨report, rfl, payload, wrapped, .optional true t, harray,
        hwrapped', .found hholds' ⟨x, hpresents', ht⟩, .optional (hpayload.extended hextended₈)
          hpacks'
          (hboth.extended hlast) hpresent'' hvalue'' (fun _ => ht) nofun⟩

theorem result_achieves_collection (hrecords : vm.Records (.collection k result) r)
    {clock : ObjectId} (hid : p.clock.objectId? = some clock)
    (hclock : vm.HasObject clock ClassName.atomicInteger (.counter now)) :
    p.bridge.Achieves ((StageHandler.collection k result).result p) s vm fun v vm' =>
      ∃ report, v = some report ∧ vm'.ReportsLast now (.collection k result) r report := by
  have hints : "int" ∈ arrayElements := by simp [arrayElements]
  refine Achieves.bind (packSides_achieves hready hutils hrecords) ?_
  intro info s₁ vm₁ hready₁ hextended₁ hpacks
  refine (p.packResult_achieves hready₁ result).bind ?_
  intro wrapped s₂ vm₂ hready₂ hextended₂ hwrapped
  obtain ⟨c, hc, hname, hcounter⟩ := hclock.extended (hextended₁.trans hextended₂)
  obtain ⟨c', hc', hdeclares, -⟩ := hready₂.equipped.library _ clockSpec_library
  obtain rfl := hready₂.equipped.distinct.eq_of_name hc hc' (hname.trans hdeclares.name.symm)
  have hstable : Stable fun (r : Value) (_ : Vm) => r = .int now := fun _ _ _ h _ => h
  refine (invoke_own_achieves hstable hready₂ hid hc hcounter hdeclares (by decide)
    (by decide) (by decide) ?_).bind ?_
  · refine (runMethod_get "()I" [] hcounter).mono ?_
    rintro _ vm' ⟨rfl, rfl⟩
    exact ⟨rfl, .refl hready₂.equipped, (fun _ h => by cases h), rfl⟩
  rintro _ s₃ vm₃ hready₃ hextended₃ rfl
  have hholds : [Value.int now].all (holds (typeNameToSignature "int")) = true := by
    have hnow : holds (typeNameToSignature "int") (.int now) = true := keyword_holds .int rfl
    simp [hnow]
  refine (arrayOf_achieves hready₃ hints hholds (show 1 < 2 ^ 31 by decide)).bind ?_
  intro time s₄ vm₄ hready₄ hextended₄ htime
  refine (array_pair_achieves hready₄ hpacks.isReference htime.isReference).bind ?_
  intro payload s₅ vm₅ hready₅ hextended₅ hpayload
  refine (array_pair_achieves hready₅ hpayload.isReference hwrapped.isReference).bind ?_
  intro report s₆ vm₆ hready₆ hextended₆ harray
  have hbehind := (hextended₃.trans hextended₄).trans (hextended₅.trans hextended₆)
  exact achieves_pure hready₆ ⟨report, rfl, payload, wrapped, .collection now, harray,
    hwrapped.extended hbehind, .collected, .collected (hpayload.extended hextended₆)
      (hpacks.extended (hextended₂.trans hbehind)) (htime.extended (hextended₅.trans hextended₆))⟩

end

end StreamTrace
