import StreamTrace.Proofs.Machine.ClearedRequests

/-!
# Pins are released

The machine counts how often an object was kept from collection. The chronicle of a course tells
these counts: each successful command to keep an object adds one, each successful command to let go
of it takes one away. A trace that is over has let go of what it kept, so the counts are as before,
unless a command to let go was refused. All of that comes after the final report, also when the
report tells of a failure.
-/

namespace StreamTrace

variable {options : TraceOptions} {home : Home} {intercept : Interception}

/-! ## What is let go of -/

/-- The object that may be collected again, because the command succeeded. -/
def Moment.freed? : Moment → Option ObjectId
  | did (.command (.enableCollection id)) r =>
    match (r : Except JdwpError Unit) with
    | .ok () => some id
    | .error _ => none
  | _ => none

theorem Moment.enabled?_of_freed? {m : Moment} {id : ObjectId} (h : m.freed? = some id) :
    m.enabled? = some id := by
  unfold freed? at h
  split at h
  · split at h
    · exact h
    · cases h
  · cases h

theorem Moment.eq_of_enabled? {m : Moment} {id : ObjectId} (h : m.enabled? = some id) :
    ∃ r : Except JdwpError Unit, m = .sent (.enableCollection id) r := by
  unfold enabled? at h
  split at h
  · cases h
    exact ⟨_, rfl⟩
  · cases h

theorem Moment.disabled?_of_pinned? {m : Moment} {id : ObjectId} (h : m.pinned? = some id) :
    m.disabled? = some id := by
  unfold pinned? at h
  split at h
  · split at h
    · exact h
    · cases h
  · cases h

namespace History

variable {h : History} {chain : StreamChain}

/-- The objects that were let go of, in their order. -/
def freed (h : History) : List ObjectId := h.filterMap Moment.freed?

theorem filterMap_sublist {α β : Type} {f g : α → Option β}
    (h : ∀ a b, f a = some b → g a = some b) (l : List α) :
    (l.filterMap f).Sublist (l.filterMap g) := by
  induction l with
  | nil => exact .slnil
  | cons a rest ih =>
      cases hf : f a with
      | none =>
          rw [List.filterMap_cons_none hf, List.filterMap_cons]
          split
          · exact ih
          · exact ih.cons _
      | some b =>
          rw [List.filterMap_cons_some hf, List.filterMap_cons_some (h a b hf)]
          exact ih.cons_cons b

theorem freed_append (h h' : History) : freed (h ++ h') = h.freed ++ h'.freed :=
  List.filterMap_append

theorem freed_snoc (h : History) (m : Moment) :
    freed (h ++ [m]) = h.freed ++ m.freed?.toList :=
  filterMap_snoc h m _

theorem freed_sublist (h : History) : h.freed.Sublist h.enabled :=
  filterMap_sublist (fun _ _ => Moment.enabled?_of_freed?) h

/-- What is to be let go of is, unless that is refused. -/
theorem freed_count_of_unrefused {id : ObjectId}
    (hid : ∀ err, .sent (.enableCollection id) (.error err) ∉ h) :
    h.freed.count id = h.enabled.count id := by
  induction h using List.reverseRecOn with
  | nil => rfl
  | append_singleton h m ih =>
      have hold := ih fun err hm => hid err (List.mem_append_left _ hm)
      rw [freed_snoc, enabled_snoc, List.count_append, List.count_append, hold]
      cases hm : m.enabled? with
      | none =>
          cases hf : m.freed? with
          | none => rfl
          | some object => cases (Moment.enabled?_of_freed? hf).symm.trans hm
      | some object =>
          obtain ⟨r, rfl⟩ := Moment.eq_of_enabled? hm
          cases r with
          | ok u => rfl
          | error e =>
              have hne : object ≠ id := by
                rintro rfl
                exact hid e (List.mem_append_right _ (List.mem_singleton.mpr rfl))
              rw [Option.toList_some, List.count_singleton, beq_false_of_ne hne]
              rfl

theorem pinned_sublist (h : History) : h.pinned.Sublist h.disabled :=
  filterMap_sublist (fun _ _ => Moment.disabled?_of_pinned?) h

/-- No object is kept from collection twice. -/
theorem Lawful.disabled_nodup (hl : h.Lawful chain) : h.disabled.Nodup := by
  induction h using List.reverseRecOn with
  | nil => exact .nil
  | append_singleton h m ih =>
      have hold := ih (hl.of_prefix ⟨[m], rfl⟩)
      rw [disabled_snoc]
      cases hm : m.disabled? with
      | none => simpa using hold
      | some id =>
          have hnew : id ∉ disabled h := by
            unfold Moment.disabled? at hm
            split at hm
            · cases hm
              exact (hl.admitted h _ _ ⟨[], List.append_nil _⟩).disable id rfl
            · cases hm
          refine List.nodup_append.mpr ⟨hold, List.nodup_singleton _, fun x hx y hy => ?_⟩
          rintro rfl
          exact hnew (List.mem_singleton.mp hy ▸ hx)

end History

/-! ## Counts -/

/-- How often an object is kept from collection. -/
def Vm.pinCount (vm : Vm) (id : ObjectId) : Nat := (vm.pins.get? id).getD 0

namespace Vm

variable {vm vm' : Vm} {a : Action} {r : a.Reply}

theorem pinCount_of_pins (h : vm'.pins = vm.pins) (id : ObjectId) :
    vm'.pinCount id = vm.pinCount id := by
  rw [pinCount, h, pinCount]

theorem pinCount_set (vm : Vm) (object id : ObjectId) (n : Nat) :
    pinCount { vm with pins := vm.pins.set object n } id =
      if object = id then n else vm.pinCount id := by
  unfold pinCount
  rw [Table.get?_set]
  split <;> rfl

theorem pinCount_erase (vm : Vm) (object id : ObjectId) :
    pinCount { vm with pins := vm.pins.erase object } id =
      if object = id then 0 else vm.pinCount id := by
  unfold pinCount
  split
  · rename_i heq
    rw [heq, Table.get?_erase_self]
    rfl
  · rename_i hne
    rw [Table.get?_erase_of_ne _ hne]

theorem pinCount_disabled (vm : Vm) (object id : ObjectId) :
    (vm.answer (.disableCollection object)).2.pinCount id = vm.pinCount id +
      (Moment.pinned? (.sent _ (vm.answer (.disableCollection object)).1)).toList.count id := by
  rw [answer_disableCollection]
  split
  · rfl
  · split
    · refine (pinCount_set vm object id _).trans ?_
      show _ = vm.pinCount id + [object].count id
      rw [List.count_singleton]
      by_cases heq : object = id
      · simp [heq, pinCount]
      · simp [heq]
    · rfl

theorem pinCount_enabled (vm : Vm) (object id : ObjectId) :
    (vm.answer (.enableCollection object)).2.pinCount id = vm.pinCount id -
      (Moment.freed? (.sent _ (vm.answer (.enableCollection object)).1)).toList.count id := by
  rw [answer_enableCollection]
  split
  · rfl
  · split
    · show _ = vm.pinCount id - [object].count id
      rw [List.count_singleton]
      dsimp only
      split
      · rename_i hnone
        by_cases heq : object = id
        · simp [← heq, pinCount, hnone]
        · simp [heq]
      · rename_i n hsome
        split
        · rw [pinCount_erase]
          by_cases heq : object = id
          · simp only [← heq, pinCount, hsome, if_true, Option.getD_some, beq_self_eq_true]
            omega
          · simp [heq]
        · rw [pinCount_set]
          by_cases heq : object = id
          · simp [← heq, pinCount, hsome]
          · simp [heq]
    · rfl

/-- The count of an object grows when it is kept from collection, and falls when it is let go of. -/
theorem Performed.pinCount (h : vm.Performed a r vm') (id : ObjectId) :
    vm'.pinCount id = vm.pinCount id + (Moment.did a r).pinned?.toList.count id -
      (Moment.did a r).freed?.toList.count id := by
  cases h with
  | served c =>
      cases c with
      | disableCollection object => exact pinCount_disabled vm object id
      | enableCollection object => exact pinCount_enabled vm object id
      | _ => exact pinCount_of_pins ((answered vm _).pins_of_ne rfl rfl) id
  | refused c e => cases c <;> rfl
  | beside r h =>
      cases a with
      | command c => exact absurd rfl (h c)
      | _ => rfl

/-- An object that is kept from collection exists. -/
theorem Performed.pinned (h : vm.Performed a r vm') {id : ObjectId}
    (hid : (Moment.did a r).pinned? = some id) : (vm.lookup? id).isSome := by
  cases h with
  | served c =>
      cases c with
      | disableCollection object =>
          rw [answer_disableCollection] at hid
          split at hid
          · cases hid
          · split at hid
            · rename_i hsome
              cases hid
              rw [hsome]
              rfl
            · cases hid
      | _ => cases hid
  | refused c e => cases c <;> cases hid
  | beside r h =>
      cases a with
      | command c => exact absurd rfl (h c)
      | _ => cases hid

end Vm

/-! ## Kept counts -/

namespace Told

variable {calm : Prop} {s s' s₀ : Told}

/-- The chronicle tells how often each object is kept from collection. A command to let go of one
that was kept fails only if it is kept from the machine. -/
structure Counted (intercept : Interception) (s : Told) : Prop where
  same : s.world.intercept = intercept
  held : ∀ id ∈ s.chronicle.history.pinned, (s.world.vm.lookup? id).isSome
  counts : ∀ id, s.world.vm.pinCount id + s.chronicle.history.freed.count id =
    s.chronicle.history.pinned.count id
  refused : ∀ id e, .sent (.enableCollection id) (.error e) ∈ s.chronicle.history →
    ∃ n, intercept (.enableCollection id) n = some (.error e)

/-- A trace that is over has let go of nothing that it did not keep. -/
theorem freed_le_pinned {episodes : List Episode}
    (h : ∀ e ∈ episodes, e.Remaining options (.done .finished)) (id : ObjectId) :
    (History.freed (episodes.flatMap Episode.history)).count id ≤
      (History.pinned (episodes.flatMap Episode.history)).count id := by
  induction episodes with
  | nil => exact Nat.le_refl _
  | cons e rest ih =>
      have hfirst : e.history.freed.count id ≤ e.history.pinned.count id := by
        have hleaves : TraceRun options e.request e.history (.done .finished) :=
          h e List.mem_cons_self
        rw [← hleaves.lawful.2.2.count_eq]
        exact e.history.freed_sublist.count_le id
      have hrest := ih fun e' he' => h e' (List.mem_cons_of_mem e he')
      rw [List.flatMap_cons, History.freed_append, History.pinned_append, List.count_append,
        List.count_append]
      exact Nat.add_le_add hfirst hrest

/-- The traces have kept an object more often than they let go of it, if the one in flight may let
go of it now. -/
theorem Invariant.freed_lt (hw : s.Invariant calm home options) {e : Episode} {id : ObjectId}
    {next : (Action.command (.enableCollection id)).Reply → Program Continuation}
    (hcurrent : s.chronicle.current = some e)
    (hleaves : e.Remaining options (.act (.command (.enableCollection id)) next)) :
    s.chronicle.history.freed.count id < s.chronicle.history.pinned.count id := by
  have hleaves : TraceRun options e.request e.history _ := hleaves
  obtain ⟨-, rest, hpinned⟩ := hleaves.lawful.2.1.release id rfl
  have hnow : e.history.freed.count id < e.history.pinned.count id := by
    have hfreed := e.history.freed_sublist.count_le id
    rw [← hpinned.count_eq, List.count_append, List.count_cons_self]
    omega
  have hdone := freed_le_pinned hw.done id
  simp only [Chronicle.history, hcurrent, Option.toList_some, List.flatMap_append,
    List.flatMap_singleton, History.freed_append, History.pinned_append, List.count_append]
  omega

/-- What keeps no object and lets go of none keeps the counts. -/
theorem Counted.of_quiet (hk : s.Counted intercept)
    (hintercept : s'.world.intercept = s.world.intercept)
    (hpins : s'.world.vm.pins = s.world.vm.pins)
    (hobjects : ∀ id, (s.world.vm.lookup? id).isSome → (s'.world.vm.lookup? id).isSome)
    (new : History) (hhistory : s'.chronicle.history = s.chronicle.history ++ new)
    (hpinned : new.pinned = []) (henabled : new.enabled = []) : s'.Counted intercept := by
  have hfreed : new.freed = [] := List.sublist_nil.mp (henabled ▸ new.freed_sublist)
  refine ⟨hintercept.trans hk.same, fun id hid => ?_, fun id => ?_, fun id e hm => ?_⟩
  · rw [hhistory, History.pinned_append, hpinned, List.append_nil] at hid
    exact hobjects id (hk.held id hid)
  · rw [hhistory, History.pinned_append, History.freed_append, hpinned, hfreed, List.append_nil,
      List.append_nil, Vm.pinCount_of_pins hpins]
    exact hk.counts id
  · rw [hhistory] at hm
    rcases List.mem_append.mp hm with hm | hm
    · exact hk.refused id e hm
    · have hmem : id ∈ new.enabled := List.mem_filterMap.mpr ⟨_, hm, rfl⟩
      rw [henabled] at hmem
      exact absurd hmem List.not_mem_nil

/-- An object that was kept can be let go of, so only in place of the machine is that refused. -/
theorem Counted.intercepted (hw : s.Invariant calm home options) (hk : s.Counted intercept)
    {id : ObjectId} (hheld : id ∈ s.chronicle.history.pinned) {e : JdwpError}
    (he : (s.world.command (.enableCollection id)).1 = .error e) :
    ∃ n, intercept (.enableCollection id) n = some (.error e) := by
  obtain ⟨-, ⟨hanswer, -⟩ | ⟨n, e', hi, hanswer, -⟩⟩ :=
    s.world.command_spec (.enableCollection id) hw.refuses hw.quiet
  · rw [hanswer, Vm.answer_enableCollection, if_neg (by simp [hw.alive])] at he
    obtain ⟨o, ho⟩ := Option.isSome_iff_exists.mp (hk.held id hheld)
    rw [ho] at he
    cases he
  · rw [hanswer] at he
    cases he
    exact ⟨n, hk.same ▸ hi⟩

/-- Every step of a course keeps the counts. -/
theorem Counted.change (hw : s.Invariant calm home options) (hk : s.Counted intercept)
    (hc : s.Change options s') (hintercept : s'.world.intercept = s.world.intercept) :
    s'.Counted intercept := by
  cases hc with
  | acts e a next current leaves performs told =>
      have hhistory := Chronicle.history_goesOn current (.did a (s.world.perform a).1)
      rw [← told] at hhistory
      refine ⟨hintercept.trans hk.same, fun id hid => ?_, fun id => ?_, fun id err hm => ?_⟩
      · rw [hhistory, History.pinned_snoc] at hid
        refine performs.inPlace.objects id ?_
        rcases List.mem_append.mp hid with hid | hid
        · exact hk.held id hid
        · exact performs.pinned (Option.mem_toList.mp hid)
      · -- What is let go of now was kept before.
        have hkept : (Moment.freed? (.did a (s.world.perform a).1)).toList.count id ≤
            s.world.vm.pinCount id := by
          cases hfreed : Moment.freed? (.did a (s.world.perform a).1) with
          | none => exact Nat.zero_le _
          | some object =>
              rw [Option.toList_some, List.count_singleton]
              split
              · rename_i heq
                obtain rfl := beq_iff_eq.mp heq
                obtain ⟨r, hm⟩ := Moment.eq_of_enabled? (Moment.enabled?_of_freed? hfreed)
                obtain rfl := (Moment.did.inj hm).1
                have hlt := hw.freed_lt current leaves
                have hold := hk.counts object
                omega
              · exact Nat.zero_le _
        have hcount := performs.pinCount id
        have hold := hk.counts id
        rw [hhistory, History.pinned_snoc, History.freed_snoc, List.count_append,
          List.count_append, hcount]
        omega
      · rw [hhistory] at hm
        refine (List.mem_append.mp hm).elim (hk.refused id err) fun hm => ?_
        have heq := List.mem_singleton.mp hm
        generalize hr : (s.world.perform a).1 = r at heq
        cases heq
        have hlt := hw.freed_lt current leaves
        exact hk.intercepted hw (List.count_pos_iff.mp (Nat.lt_of_le_of_lt (Nat.zero_le _) hlt)) hr
  | hears e event current same told =>
      refine hk.of_quiet hintercept (by rw [same]) (fun id hid => same ▸ hid) [.heard event] ?_ rfl
        rfl
      rw [told, Chronicle.history_goesOn current]
  | begins r current same told =>
      refine hk.of_quiet hintercept (by rw [same]) (fun id hid => same ▸ hid) [] ?_ rfl rfl
      rw [told, Chronicle.history_begins current, List.append_nil]
  | ends e current leaves same told =>
      refine hk.of_quiet hintercept (by rw [same]) (fun id hid => same ▸ hid) [] ?_ rfl rfl
      rw [told, Chronicle.history_ends, List.append_nil]
  | goes bound stop goes told =>
      exact hk.of_quiet hintercept goes.pins goes.objects [] (by rw [told, List.append_nil]) rfl rfl
  | rests same told =>
      obtain ⟨suspended, hvm⟩ := same
      exact hk.of_quiet hintercept (by rw [hvm]) (fun id hid => hvm ▸ hid) []
        (by rw [told, List.append_nil]) rfl rfl

theorem counted_launch (p : StreamProgram) (intercept : Interception) (options : TraceOptions) :
    (launch p intercept options).Counted intercept := by
  obtain ⟨hvm, hintercept⟩ := launch_world p intercept options
  refine ⟨hintercept, fun id hid => absurd hid List.not_mem_nil, fun id => ?_,
    fun id e hm => absurd hm List.not_mem_nil⟩
  rw [Vm.pinCount, hvm, p.launch_atStatement.1.pins]
  rfl

/-! ## Traces that are over -/

/-- What every course comes to: its chronicle tells how often each object is kept. -/
theorem Course.counted {p : StreamProgram} (h : s.Course calm p options) :
    s.Invariant calm p.home options ∧ s.Counted s.world.intercept := by
  obtain ⟨intercept, hrefuses, hleads⟩ := h
  obtain ⟨hw, hk⟩ := hleads.induction (P := Counted intercept) (invariant_launch p options hrefuses)
    (counted_launch p intercept options) fun s s' hw _ hc hi hk => hk.change hw hc hi
  exact ⟨hw, hk.same ▸ hk⟩

/-- When a trace is over, every object is kept from collection as often as before it, unless a
command to let go of it was kept from the machine. The trace has kept no object twice, has let go of
none that it did not keep, and of nothing before its final report. -/
theorem Course.pins_restored {p : StreamProgram} (h : s₀.Course calm p options)
    (hidle : s₀.chronicle.current = none) (hleads : s₀.Later calm s) {e : Episode}
    (hover : s.chronicle = ⟨s₀.chronicle.done ++ [e], none⟩) :
    (∀ id, s.world.vm.pinCount id = s₀.world.vm.pinCount id ∨ ∃ n err,
      s.world.intercept (.enableCollection id) n = some (.error err) ∧
        .sent (.enableCollection id) (.error err) ∈ e.history) ∧
      (∀ id, e.history.disabled.count id ≤ 1 ∧
        e.history.enabled.count id ≤ e.history.disabled.count id) ∧
      ∃ (before : History) (r : Report) (after : History),
        e.history = before ++ .did (.deliver r) () :: after ∧
        r.isFinal = true ∧ before.enabled = [] ∧ after.Releasing := by
  obtain ⟨-, hk₀⟩ := h.counted
  obtain ⟨hw, hk⟩ := (h.later hleads).counted
  have hleaves : TraceRun options e.request e.history (.done .finished) :=
    hw.done e (by rw [hover]; exact List.mem_append_right _ (List.mem_singleton.mpr rfl))
  obtain ⟨hlawful, -, hequal⟩ := hleaves.lawful
  refine ⟨fun id => ?_, fun id => ⟨?_, ?_⟩, ?_⟩
  · have hhistory : s.chronicle.history = s₀.chronicle.history ++ e.history := by
      simp [Chronicle.history, hover, hidle]
    have hold := hk₀.counts id
    have hnow := hk.counts id
    rw [hhistory, History.freed_append, History.pinned_append, List.count_append,
      List.count_append] at hnow
    by_cases hrefused : ∃ err, .sent (.enableCollection id) (.error err) ∈ e.history
    · obtain ⟨err, hm⟩ := hrefused
      obtain ⟨n, hi⟩ := hk.refused id err (hhistory ▸ List.mem_append_right _ hm)
      exact .inr ⟨n, err, hi, hm⟩
    · have hfreed := History.freed_count_of_unrefused fun err hm => hrefused ⟨err, hm⟩
      rw [hfreed, hequal.count_eq] at hnow
      exact .inl (by omega)
  · exact List.nodup_iff_count_le_one.mp hlawful.disabled_nodup id
  · rw [hequal.count_eq]
    exact e.history.pinned_sublist.count_le id
  · obtain ⟨before, r, after, hhistory, hends, -⟩ := hleaves.ends
    obtain ⟨state, hstate, -⟩ := hends.outcome
    exact ⟨before, r, after, hhistory, r.isFinal_iff.mpr ⟨state, hstate⟩, hends.held,
      hends.releasing⟩

theorem pins_restored_of_held : ∃ (s : Told) (e : Episode),
    s.chronicle = ⟨[e], none⟩ ∧
      (∀ id, s.world.vm.pinCount id =
          (launch heldProgram holding heldOptions).world.vm.pinCount id ∨ ∃ n err,
        s.world.intercept (.enableCollection id) n = some (.error err) ∧
          .sent (.enableCollection id) (.error err) ∈ e.history) ∧
      (∀ id, e.history.disabled.count id ≤ 1 ∧
        e.history.enabled.count id ≤ e.history.disabled.count id) ∧
      ∃ (before : History) (r : Report) (after : History),
        e.history = before ++ .did (.deliver r) () :: after ∧
          r.isFinal = true ∧ before.enabled = [] ∧ after.Releasing := by
  obtain ⟨s₁, -, -, -, hleads, -, -, -, -, s, e, hlater', hover⟩ := heldStart_reports
  have hlaunch : (launch heldProgram holding heldOptions).Course True heldProgram heldOptions :=
    ⟨holding, holding_refuses, .refl⟩
  exact ⟨s, e, hover, Course.pins_restored hlaunch rfl
    ((later_begun _ _ _ _).trans (hleads.trans hlater')) hover⟩

/-! ## Traces that fail -/

/-- A trace that reports its failure still keeps from collection all that it kept, as often as it
kept it, and has let go of nothing. It lets go of all that only after the report. -/
theorem Course.pins_kept_at_failure {p : StreamProgram} (h : s₀.Course calm p options)
    {done : List Episode} {request : TraceRequest} {before : History} {expression : String}
    {failure : TraceFailure} (hbegins : s₀.chronicle = ⟨done, some ⟨request, []⟩⟩)
    (hleads : s₀.Later calm s) (hnow : s.chronicle =
      ⟨done, some ⟨request, before ++ [.did (.deliver (.failed expression failure)) ()]⟩⟩) :
    (∀ id, s.world.vm.pinCount id = s₀.world.vm.pinCount id + before.pinned.count id) ∧
      before.enabled = [] ∧
      ∀ (s' : Told) (e : Episode), s.Later calm s' → s'.chronicle = ⟨done ++ [e], none⟩ →
        ∃ after : History,
          e.history = before ++ .did (.deliver (.failed expression failure)) () :: after ∧
            after.Releasing ∧ after.enabled.Perm before.pinned := by
  obtain ⟨-, hk₀⟩ := h.counted
  obtain ⟨hw, hk⟩ := (h.later hleads).counted
  have hlet : before.enabled = [] := by
    obtain ⟨m, -, -, hflight⟩ := hw.manager
    rw [hnow] at hflight
    obtain ⟨q, hleaves⟩ := hflight.remaining
    have hleaves : TraceRun options request
      (before ++ [.did (.deliver (.failed expression failure)) ()]) q := hleaves
    have hlawful := hleaves.lawful.1
    have hadmits := hlawful.admitted before (.deliver (.failed expression failure)) ()
      ⟨[], List.append_nil _⟩
    have hfirst : before.finals = [] := by
      refine hadmits.ended ?_
      rintro id ha
      cases ha
    exact (hlawful.of_prefix (List.prefix_append _ _)).enabled_eq_nil hfirst
  refine ⟨fun id => ?_, hlet, fun s' e hlater hover => ?_⟩
  · have hold := hk₀.counts id
    have hcount := hk.counts id
    have hfreed : before.freed = [] := List.sublist_nil.mp (hlet ▸ before.freed_sublist)
    have hhistory : s.chronicle.history = s₀.chronicle.history ++
        (before ++ [.did (.deliver (.failed expression failure)) ()]) := by
      simp [Chronicle.history, hnow, hbegins]
    rw [hhistory, History.pinned_append, History.freed_append, History.pinned_append,
      History.freed_append, hfreed, List.count_append, List.count_append] at hcount
    have hnothing : History.pinned [.did (.deliver (.failed expression failure)) ()] = [] ∧
        History.freed [.did (.deliver (.failed expression failure)) ()] = [] := ⟨rfl, rfl⟩
    rw [hnothing.1, hnothing.2] at hcount
    simp only [List.count_append, List.count_nil] at hcount
    omega
  · -- The history goes on behind the report, which is its only final one.
    obtain ⟨h', ⟨rest, rfl⟩, hflight | hended⟩ := hlater.extends hw hnow
    · rw [hflight] at hover
      cases congrArg Chronicle.current hover
    rw [hover] at hended
    have hsame := hended.eq_of_length (by simp)
    obtain rfl := (List.append_singleton_inj.mp hsame).2
    obtain ⟨hw', -⟩ := ((h.later hleads).later hlater).counted
    have hleaves : TraceRun options request _ (.done .finished) :=
      hw'.done ⟨request, _⟩ <| by
        rw [hover]
        exact List.mem_append_right _ (List.mem_singleton.mpr rfl)
    obtain ⟨before', r, after, hhistory, hends, hall⟩ := hleaves.ends
    have hfinal : (Report.failed expression failure).isFinal = true := rfl
    obtain ⟨rfl, rfl, rfl⟩ := hends.unique hfinal (hhistory.symm.trans (List.append_assoc ..))
    exact ⟨after, hhistory, hends.releasing, hall⟩

theorem pins_kept_of_held : ∃ (s : Told) (before : History) (expression : String)
    (failure : TraceFailure), before.pinned ≠ [] ∧
      (∀ id, s.world.vm.pinCount id = heldStart.world.vm.pinCount id + before.pinned.count id) ∧
      before.enabled = [] ∧
      ∀ (s' : Told) (e : Episode), s.Later True s' → s'.chronicle = ⟨[e], none⟩ →
        ∃ after : History,
          e.history = before ++ .did (.deliver (.failed expression failure)) () :: after ∧
            after.Releasing ∧ after.enabled.Perm before.pinned := by
  obtain ⟨s, before, expression, failure, hleads, hnow, hpinned, -⟩ := heldStart_reports
  have hcourse : heldStart.Course True heldProgram heldOptions := heldStart_course
  exact ⟨s, before, expression, failure, hpinned,
    Course.pins_kept_at_failure hcourse rfl hleads hnow⟩

end Told

end StreamTrace
