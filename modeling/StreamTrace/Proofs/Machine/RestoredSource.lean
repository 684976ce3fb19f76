import StreamTrace.Proofs.Machine.PinCounts
import StreamTrace.Proofs.Machine.Variables

/-!
# The source is restored

A trace writes into the frame of the statement at most twice: it replaces the stream in the source
variable, and puts the old one back before it delivers its final report, wherever the thread stands
then. Nothing else of that frame is written.
-/

namespace StreamTrace

open History (Admits MayWrite SourceMissed)

variable {options : TraceOptions} {home : Home} {chain : StreamChain}

/-! ## Histories with one more moment -/

namespace History

variable {h : History} {m m' : Moment}

theorem substituted_snoc : Substituted (h ++ [m]) ↔
    h.Substituted ∨ h.writes = [] ∧ m.wrote? ≠ none ∧ ∀ e, .heard e ∉ h := by
  by_cases hw : h.writes = []
  · have hnot : ¬h.Substituted := fun hs => hs.1 hw
    cases hm : m.wrote? with
    | none => simp [Substituted, hw, hm]
    | some w => simp [Substituted, hw, hm, unwritten_snoc_wrote h m hw (by simp [hm])]
  · simp [Substituted, hw, unwritten_snoc_of_ne h m hw]

theorem mem_of_mem_unwritten_snoc (hm : m' ∈ unwritten (h ++ [m])) :
    m' ∈ h.unwritten ∨ m' = m ∧ h.writes = [] := by
  by_cases hw : h.writes = []
  · rw [unwritten_of_writes h hw]
    rcases List.mem_append.mp (List.takeWhile_subset _ hm) with hm | hm
    · exact .inl hm
    · exact .inr ⟨List.mem_singleton.mp hm, hw⟩
  · rw [unwritten_snoc_of_ne h m hw] at hm
    exact .inl hm

theorem base?_append_of_some {base : Int} (hb : h.base? = some base) (h' : History) :
    base? (h ++ h') = some base := by
  rw [base?, List.filterMap_append, List.head?_append]
  exact congrArg (Option.or · _) hb

theorem invoking?_append_of_some {l : Location} (hl : h.invoking? = some l) (h' : History) :
    invoking? (h ++ h') = some l := by
  unfold invoking? at hl ⊢
  rw [Option.map_eq_some_iff] at hl
  obtain ⟨f, hf, rfl⟩ := hl
  rw [List.filterMap_append, List.head?_append, hf]
  rfl

theorem head?_writes_snoc {w : FrameId × List (Nat × Value)} (hw : h.writes.head? = some w) :
    (writes (h ++ [m])).head? = some w := by
  rw [writes_snoc, List.head?_append, hw, Option.some_or]

end History

/-! ## Refused restores -/

namespace History

/-- After the frames were counted with the result `r`, what leads to the source variable or writes
it was refused. -/
inductive Denied (t : ThreadId) : Except JdwpError Int → History → Prop where
  | uncounted (e : JdwpError) (post : History) : Denied t (.error e) post
  | unseen (n start : Int) (e : JdwpError) (post : History) :
      Denied t (.ok n) (.sent (.frames t start 1) (.error e) :: post)
  | unwritten (n start : Int) (frames : List FrameInfo) (frame : FrameId)
      (values : List (Nat × Value)) (e : JdwpError) (post : History) :
      Denied t (.ok n) (.sent (.frames t start 1) (.ok frames) ::
        .sent (.setSlots t frame values) (.error e) :: post)

/-- The source was replaced and not put back: when the frames were counted for the last time, a
command to do so was refused. -/
def RestoreRefused (h : History) : Prop :=
  h.Substituted ∧ ¬h.PutBack ∧ ∃ (pre : History) (t : ThreadId) (r : Except JdwpError Int)
    (post : History), h = pre ++ .sent (.frameCount t) r :: post ∧ (∀ m ∈ post, m.counts = false) ∧
      Denied t r post

end History

/-! ## What becomes of the source -/

/-- How far the source variable of the statement's frame was replaced since the machine was `vm₀`:
not at all, by another stream, or back to what it held. -/
inductive Vm.Swap (vm₀ : Vm) (frame : FrameId) (l : Location) (source : Nat) (h : History)
    (vm : Vm) : Prop where
  | untouched (spared : vm₀.Spares frame vm) (unmade : ¬h.Substituted)
  | made (stream held : Value) (before : vm₀.slotOf frame source = some held)
      (slots : ∀ slot, vm.slotOf frame slot =
        if source = slot then some stream else vm₀.slotOf frame slot)
      (noted : vm.notedFor frame = vm₀.notedFor frame ++ [(source, stream)])
      (first : h.writes.head? = some (frame, [(source, stream)])) (sub : h.Substituted)
      (notBack : ¬h.PutBack) (base : h.base? = some 2) (invoking : h.invoking? = some l)
  | back (stream held : Value) (before : vm₀.slotOf frame source = some held)
      (slots : ∀ slot, vm.slotOf frame slot = vm₀.slotOf frame slot)
      (noted : vm.notedFor frame = vm₀.notedFor frame ++ [(source, stream), (source, held)])
      (sub : h.Substituted) (done : h.PutBack)

/-- What a trace has learned about the frame of the statement, and has done to it. -/
structure Vm.FrameKnown (vm₀ : Vm) (home : Home) (frame : FrameId) (l : Location) (h : History)
    (vm : Vm) : Prop where
  place : vm.HasStatement frame l
  deep : ∀ t (n : Int), .sent (.frameCount t) (.ok n) ∈ h → 2 ≤ n
  below : ∀ (pre : History) t (n : Int) (frames : List FrameInfo),
    pre ++ [.sent (.frameCount t) (.ok n)] ++ [.sent (.frames t (n - 2) 1) (.ok frames)] <+: h →
      frames = [{ frameId := frame, location := l }]
  tables : ∀ type method n (locals : List VariableInfo),
    .sent (.variableTable type method) (.ok (n, locals)) ∈ h →
      type = home.main ∧ method = home.run ∧ locals = [StreamProgram.thisVariable, home.info]
  reads : ∀ t slot signature (held : Value) (others : List Value),
    .sent (.slotValues t frame [(slot, signature)]) (.ok (held :: others)) ∈ h.unwritten →
      vm₀.slotOf frame slot = some held
  swap : vm₀.Swap frame l home.info.slot h vm

namespace Vm

variable {vm₀ vm vm' : Vm} {frame : FrameId} {l : Location} {source : Nat} {h : History}
  {m : Moment} {a : Action} {r : a.Reply} {stop : Option Event} {inbox : List Event}
  {threaded : Prop}

theorem Spares.trans {vm'' : Vm} (h : vm.Spares frame vm') (h' : vm'.Spares frame vm'') :
    vm.Spares frame vm'' :=
  ⟨fun slot => (h'.slots slot).trans (h.slots slot), h'.noted.trans h.noted⟩

/-- Before the first write nothing is swapped. -/
theorem Swap.spares (hs : vm₀.Swap frame l source h vm) (hw : h.writes = []) :
    vm₀.Spares frame vm := by
  cases hs with
  | untouched spared => exact spared
  | made stream held before slots noted first sub => exact absurd hw sub.1
  | back stream held before slots noted sub => exact absurd hw sub.1

theorem Swap.of_spares (hs : vm₀.Swap frame l source h vm) (hspares : vm.Spares frame vm') :
    vm₀.Swap frame l source h vm' := by
  cases hs with
  | untouched spared unmade => exact .untouched (spared.trans hspares) unmade
  | made stream held before slots noted first sub notBack base invoking =>
      exact .made stream held before (fun slot => (hspares.slots slot).trans (slots slot))
        (hspares.noted.trans noted) first sub notBack base invoking
  | back stream held before slots noted sub done =>
      exact .back stream held before (fun slot => (hspares.slots slot).trans (slots slot))
        (hspares.noted.trans noted) sub done

/-- A moment that does not concern the frame. -/
theorem Swap.snoc (hs : vm₀.Swap frame l source h vm) (hspares : vm.Spares frame vm')
    (hm : m.wrote? = none ∨ h.counting = false ∧ ∃ e, .heard e ∈ h) :
    vm₀.Swap frame l source (h ++ [m]) vm' := by
  cases hs with
  | untouched spared unmade =>
      refine .untouched (spared.trans hspares) fun hsub => ?_
      rcases History.substituted_snoc.mp hsub with hsub | ⟨-, hwrote, hnone⟩
      · exact unmade hsub
      · rcases hm with hm | ⟨-, e, he⟩
        · exact hwrote hm
        · exact hnone e he
  | made stream held before slots noted first sub notBack base invoking =>
      refine .made stream held before (fun slot => (hspares.slots slot).trans (slots slot))
        (hspares.noted.trans noted) (History.head?_writes_snoc first)
        (History.substituted_snoc.mpr (.inl sub)) (fun hback => ?_)
        (History.base?_append_of_some base _) (History.invoking?_append_of_some invoking _)
      rcases (History.putBack_snoc h m).mp hback with hback | ⟨hcounting, hwrote⟩
      · exact notBack hback
      · rcases hm with hm | ⟨hcalm, -⟩
        · exact hwrote hm
        · rw [hcalm] at hcounting
          cases hcounting
  | back stream held before slots noted sub done =>
      exact .back stream held before (fun slot => (hspares.slots slot).trans (slots slot))
        (hspares.noted.trans noted) (History.substituted_snoc.mpr (.inl sub))
        ((History.putBack_snoc h m).mpr (.inl done))

/-! ### Frames -/

theorem framesFrom_one (vm : Vm) (start : Int) :
    vm.framesFrom start 1 = vm.places[start.toNat]?.toList.map fun p =>
      { frameId := p.1, location := p.2 } := by
  have hall : vm.framesFrom start 1 = ((vm.frames.drop start.toNat).map fun f =>
    ({ frameId := f.id, location := f.location } : FrameInfo)).take 1 := rfl
  rw [hall, List.take_one, List.head?_map, List.head?_drop, places, List.getElem?_map]
  cases vm.frames[start.toNat]? <;> rfl

theorem framesFrom_top {f : FrameInfo} {fs : List FrameInfo} (htop : f :: fs = vm.framesFrom 0 1) :
    vm.places[0]? = some (f.frameId, f.location) := by
  have hone : f :: fs = vm.places[0]?.toList.map fun p =>
      { frameId := p.1, location := p.2 } := htop.trans (framesFrom_one vm 0)
  cases hfirst : vm.places[0]? with
  | none =>
      rw [hfirst] at hone
      cases hone
  | some p =>
      rw [hfirst] at hone
      cases hone
      rfl

theorem HasStatement.place (h : vm.HasStatement frame l) :
    2 ≤ vm.places.length ∧ vm.places[vm.places.length - 2]? = some (frame, l) := by
  obtain ⟨hlt, -⟩ := List.getElem?_eq_some_iff.mp h
  rw [List.length_reverse] at hlt
  rw [HasStatement, List.getElem?_reverse hlt] at h
  exact ⟨hlt, h⟩

/-- The frame of the statement is the second from the bottom. -/
theorem HasStatement.framesFrom (hstatement : vm.HasStatement frame l) {n : Int}
    (hn : n = vm.frames.length) :
    vm.framesFrom (n - 2) 1 = [{ frameId := frame, location := l }] := by
  obtain ⟨hle, hplace⟩ := hstatement.place
  have hindex : (n - 2).toNat = vm.places.length - 2 := by
    rw [length_places]
    omega
  rw [framesFrom_one, hindex, hplace]
  rfl

/-- A frame on top that is not the second from the bottom is another one. -/
theorem HasStatement.ne_top (hstatement : vm.HasStatement frame l) (hs : vm.Stands home)
    (hlength : 3 ≤ vm.places.length) {f : FrameInfo} {fs : List FrameInfo}
    (htop : f :: fs = vm.framesFrom 0 1) : f.frameId ≠ frame := by
  rintro rfl
  obtain ⟨-, hplace⟩ := hstatement.place
  have hids : (vm.places.map Prod.fst).Nodup := by
    have hnodup := hs.ids
    rwa [show vm.frames.map (·.id) = vm.places.map Prod.fst by simp [places]] at hnodup
  have hfirst : (vm.places.map Prod.fst)[0]? = some f.frameId := by
    rw [List.getElem?_map, framesFrom_top htop]
    rfl
  have hsecond : (vm.places.map Prod.fst)[vm.places.length - 2]? = some f.frameId := by
    rw [List.getElem?_map, hplace]
    rfl
  refine List.nodup_iff_getElem?_ne_getElem?.mp hids 0 (vm.places.length - 2) (by omega) ?_
    (hfirst.trans hsecond.symm)
  rw [List.length_map]
  omega

/-- If the method of the statement is on top, there are no other frames but the lowest. -/
theorem HasStatement.eq_top (hstatement : vm.HasStatement frame l) (hs : vm.Stands home)
    {f : FrameInfo} {fs : List FrameInfo} (htop : f :: fs = vm.framesFrom 0 1)
    (htype : f.location.typeId = home.main) (hmethod : f.location.methodId = home.run) :
    vm.places.length = 2 ∧ f = { frameId := frame, location := l } := by
  obtain ⟨hle, hplace⟩ := hstatement.place
  have hfirst := framesFrom_top htop
  have hlength : vm.places.length = 2 := by
    by_contra hne
    rw [places, List.getElem?_map, Option.map_eq_some_iff] at hfirst
    obtain ⟨g, hg, hplace⟩ := hfirst
    obtain ⟨-, hlocation⟩ := Prod.mk.inj hplace
    have hlast : vm.frames.reverse[vm.places.length - 1]? = some g := by
      rw [List.getElem?_reverse (by rw [← length_places]; omega), ← hg, ← length_places]
      congr 1
      omega
    exact hs.once _ g hlast (by omega) (hlocation ▸ htype) (hlocation ▸ hmethod)
  rw [hlength] at hplace
  obtain ⟨rfl, rfl⟩ := Prod.mk.inj (Option.some.inj (hfirst.symm.trans hplace))
  exact ⟨hlength, rfl⟩

/-! ### Writes -/

/-- The arguments of a method are written into a frame of its own. -/
theorem FrameKnown.arguments (hl : vm₀.FrameKnown home frame l h vm) (hs : vm.Stands home)
    (hseen : vm.SeenBy h) (hwhere : Whereabouts threaded stop inbox h vm)
    (hplace : ∀ e, stop = some e → vm.IsAt e) {request : RequestId} {t t' t'' : ThreadId}
    {at' : Location} {f : FrameInfo} {fs : List FrameInfo} {values : List (Nat × Value)}
    {r : Except JdwpError Unit} (event : h.event? = some (.methodEntry request t at'))
    (top : .sent (.frames t' 0 1) (.ok (f :: fs)) ∈ h.still) (calm : h.counting = false)
    (hp : vm.Performed (.command (.setSlots t'' f.frameId values)) r vm') :
    vm₀.Swap frame l home.info.slot (h ++ [.sent (.setSlots t'' f.frameId values) r]) vm' := by
  have hlength : 3 ≤ vm.places.length := hplace _ (hwhere.eq_stop event)
  have hne := hl.place.ne_top hs hlength (hseen.looked _ _ _ _ top).2
  refine hl.swap.snoc (hp.spares fun t values hc => ?_) (.inr ⟨calm, _, History.mem_of_event event⟩)
  cases hc
  exact hne rfl

/-- Another stream is put into the source variable. -/
theorem FrameKnown.substituted (hl : vm₀.FrameKnown home frame l h vm) (hs : vm.Stands home)
    (hseen : vm.SeenBy h) (hbegun : h.Begun) {name : String} (hname : name ≠ "this")
    {t t' t'' : ThreadId} {f : FrameInfo} {fs : List FrameInfo} {n : Nat}
    {locals : List VariableInfo} {v : VariableInfo} {held stream : Value} {others : List Value}
    {r : Except JdwpError Unit} (fresh : h.writes = []) (early : ∀ e, .heard e ∉ h)
    (unmoved : h.still = h) (top : .sent (.frames t 0 1) (.ok (f :: fs)) ∈ h.still)
    (table : .sent (.variableTable f.location.typeId f.location.methodId) (.ok (n, locals)) ∈
      h.still)
    (visible : TracePlan.visibleVariable? locals name f.location.index = some v)
    (read : .sent (.slotValues t' f.frameId [(v.slot, v.signature)]) (.ok (held :: others)) ∈
      h.still)
    (calm : h.counting = false)
    (hp : vm.Performed (.command (.setSlots t'' f.frameId [(v.slot, stream)])) r vm') :
    vm₀.Swap frame l home.info.slot (h ++ [.sent (.setSlots t'' f.frameId [(v.slot, stream)]) r])
      vm' := by
  rw [unmoved] at top table read
  obtain ⟨htype, hmethod, rfl⟩ := hl.tables _ _ _ _ table
  have htop := (hseen.looked _ _ _ _ (unmoved.symm ▸ top)).2
  obtain ⟨hlength, rfl⟩ := hl.place.eq_top hs htop htype hmethod
  obtain rfl : v = home.info := by
    have hfound := List.mem_of_find?_eq_some visible
    have hvisible := List.find?_some visible
    simp only [Bool.and_eq_true, beq_iff_eq] at hvisible
    rcases List.mem_cons.mp hfound with rfl | hfound
    · exact absurd hvisible.1.symm hname
    · exact List.mem_singleton.mp hfound
  rcases hp.wrote with ⟨⟨e, rfl⟩, rfl⟩ | ⟨rfl, hslots, hnoted⟩
  · exact hl.swap.snoc (.of_eq rfl rfl) (.inl rfl)
  · have hspares := hl.swap.spares fresh
    have hbefore := hl.reads _ _ _ _ _ ((History.unwritten_of_writes h fresh).symm ▸ read)
    -- The first looks at the thread were at the same place.
    obtain ⟨t₀, f₀, fs₀, base, post, hfirst⟩ := hbegun
    have hbase : base = 2 := by
      have hcount : .sent (.frameCount t₀) (.ok base) ∈ h.still := by
        rw [unmoved, hfirst]
        exact List.mem_cons_of_mem _ List.mem_cons_self
      rw [(hseen.counted _ _ hcount).2, ← length_places, hlength]
      rfl
    have hinvoking : f₀.location = l := by
      have hlook : .sent (.frames t₀ 0 1) (.ok (f₀ :: fs₀)) ∈ h.still := by
        rw [unmoved, hfirst]
        exact List.mem_cons_self
      have hframes := (hseen.looked _ _ _ _ hlook).2.trans htop.symm
      rw [(List.cons.inj hframes).1]
    refine .made stream held hbefore (fun slot => ?_) ?_ ?_ ?_ (fun hback => ?_) ?_ ?_
    · rw [hslots, hspares.slots]
    · rw [hnoted, hspares.noted]
    · rw [History.writes_snoc, fresh]
      rfl
    · exact History.substituted_snoc.mpr (.inr ⟨fresh, nofun, early⟩)
    · rcases (History.putBack_snoc _ _).mp hback with hback | ⟨hcounting, -⟩
      · exact History.not_putBack_of_writes h fresh hback
      · rw [calm] at hcounting
        cases hcounting
    · rw [hfirst, hbase]
      rfl
    · rw [hfirst, ← hinvoking]
      rfl

/-- What the source variable held is put back. -/
theorem FrameKnown.back (hl : vm₀.FrameKnown home frame l h vm) (hseen : vm.SeenBy h)
    {t t' t'' : ThreadId} {n base : Int} {f : FrameInfo} {fs : List FrameInfo} {other : FrameId}
    {slot : Nat} {signature : String} {held stream : Value} {others : List Value}
    {r : Except JdwpError Unit} (made : h.writes.head? = some (other, [(slot, stream)]))
    (early : ∀ e, .heard e ∉ h.unwritten)
    (read : .sent (.slotValues t' other [(slot, signature)]) (.ok (held :: others)) ∈ h.unwritten)
    (once : ¬h.PutBack) (counting : h.counting = true)
    (counted : .sent (.frameCount t) (.ok n) ∈ h.still) (hbase : h.base? = some base)
    (found : .sent (.frames t (n - base) 1) (.ok (f :: fs)) ∈ h.still)
    (hp : vm.Performed (.command (.setSlots t'' f.frameId [(slot, held)])) r vm') :
    vm₀.Swap frame l home.info.slot (h ++ [.sent (.setSlots t'' f.frameId [(slot, held)]) r])
      vm' := by
  cases hl.swap with
  | untouched spared unmade =>
      refine absurd ⟨fun hw => ?_, early⟩ unmade
      rw [hw] at made
      cases made
  | back stream' held' before slots noted sub done => exact absurd done once
  | made stream' held' before slots noted first sub notBack base' invoking =>
      obtain ⟨rfl, hvalues⟩ := Prod.mk.inj (Option.some.inj (made.symm.trans first))
      obtain ⟨rfl, rfl⟩ := Prod.mk.inj (List.cons.inj hvalues).1
      obtain rfl := Option.some.inj ((hl.reads _ _ _ _ _ read).symm.trans before)
      obtain rfl := Option.some.inj (hbase.symm.trans base')
      have hframes := (hseen.looked _ _ _ _ found).2
      rw [hl.place.framesFrom (hseen.counted _ _ counted).2] at hframes
      obtain ⟨rfl, -⟩ := List.cons.inj hframes
      rcases hp.wrote with ⟨⟨e, rfl⟩, rfl⟩ | ⟨rfl, hslots, hnoted⟩
      · exact hl.swap.snoc (.of_eq rfl rfl) (.inl rfl)
      · refine .back stream held before (fun slot' => ?_) ?_
          (History.substituted_snoc.mpr (.inl sub)) ((History.putBack_snoc _ _).mpr
            (.inr ⟨counting, nofun⟩))
        · rw [hslots, slots]
          split
          · rename_i heq
            rw [← heq, before]
          · rfl
        · rw [hnoted, noted, List.append_assoc]
          rfl

/-- Whatever a trace may write. -/
theorem FrameKnown.writes (hl : vm₀.FrameKnown home frame l h vm) (hs : vm.Stands home)
    (hseen : vm.SeenBy h) (hwhere : Whereabouts threaded stop inbox h vm)
    (hplace : ∀ e, stop = some e → vm.IsAt e) (hbegun : h.Begun)
    (hthis : ∀ text, chain.qualifier ≠ .var text "this") {t : ThreadId} {other : FrameId}
    {values : List (Nat × Value)} {r : Except JdwpError Unit} (hmay : h.MayWrite chain other values)
    (hp : vm.Performed (.command (.setSlots t other values)) r vm') :
    vm₀.Swap frame l home.info.slot (h ++ [.sent (.setSlots t other values) r]) vm' := by
  cases hmay with
  | arguments event top calm => exact hl.arguments hs hseen hwhere hplace event top calm hp
  | source named fresh early unmoved top table visible read calm =>
      refine hl.substituted hs hseen hbegun ?_ fresh early unmoved top table visible read calm hp
      rintro rfl
      exact hthis _ named
  | back made early read once counting counted hbase deep found =>
      exact hl.back hseen made early read once counting counted hbase found hp

/-! ### One more moment -/

theorem frameKnown_nil (hplace : vm.HasStatement frame l) : vm.FrameKnown home frame l [] vm := by
  refine ⟨hplace, fun _ _ hm => absurd hm List.not_mem_nil, fun pre t n frames hpre => ?_,
    fun _ _ _ _ hm => absurd hm List.not_mem_nil, fun _ _ _ _ _ hm => absurd hm List.not_mem_nil,
    .untouched (.of_eq rfl rfl) fun hsub => hsub.1 rfl⟩
  simp at hpre

/-- The thread goes on, and leaves the frame of the statement as it is. -/
theorem FrameKnown.of_spares (hl : vm₀.FrameKnown home frame l h vm)
    (hplace : vm'.HasStatement frame l)
    (hspares : vm.Spares frame vm') : vm₀.FrameKnown home frame l h vm' :=
  ⟨hplace, hl.deep, hl.below, hl.tables, hl.reads, hl.swap.of_spares hspares⟩

theorem FrameKnown.hear (hl : vm₀.FrameKnown home frame l h vm) (e : Event) :
    vm₀.FrameKnown home frame l (h ++ [.heard e]) vm := by
  have hold : ∀ {c : Command} {r : c.Answer}, .sent c r ∈ h ++ [.heard e] → .sent c r ∈ h := by
    intro c r hm
    refine (List.mem_append.mp hm).resolve_right fun hm => ?_
    cases List.mem_singleton.mp hm
  refine ⟨hl.place, fun t n hm => hl.deep t n (hold hm), fun pre t n frames hpre => ?_,
    fun type method n locals hm => hl.tables type method n locals (hold hm),
    fun t slot signature held others hm => ?_, hl.swap.snoc (.of_eq rfl rfl) (.inl rfl)⟩
  · rcases List.prefix_concat_iff.mp hpre with heq | hpre
    · cases (List.append_singleton_inj.mp heq).2
    · exact hl.below pre t n frames hpre
  · rcases History.mem_of_mem_unwritten_snoc hm with hm | ⟨hm, -⟩
    · exact hl.reads t slot signature held others hm
    · cases hm

/-- An action of the trace. -/
theorem FrameKnown.act (hl : vm₀.FrameKnown home frame l h vm) (hs : vm.Stands home)
    (hdepth : 2 ≤ vm.frames.length) (hseen : vm.SeenBy h)
    (hwhere : Whereabouts threaded stop inbox h vm) (hplace : ∀ e, stop = some e → vm.IsAt e)
    (hadmits : h.Admits chain a)
    (hbegun : ∀ t other values, a = .command (.setSlots t other values) → h.Begun)
    (hthis : ∀ text, chain.qualifier ≠ .var text "this") (hp : vm.Performed a r vm') :
    vm₀.FrameKnown home frame l (h ++ [.did a r]) vm' := by
  refine ⟨hl.place.of_places hp.inPlace.places, fun t n hm => ?_, fun pre t n frames hpre => ?_,
    fun type method n locals hm => ?_, fun t slot signature held others hm => ?_, ?_⟩
  · refine (List.mem_append.mp hm).elim (hl.deep t n) fun hm => ?_
    cases List.mem_singleton.mp hm
    rw [hp.counted.2]
    exact_mod_cast hdepth
  · rcases List.prefix_concat_iff.mp hpre with heq | hpre
    · obtain ⟨rfl, hm⟩ := List.append_singleton_inj.mp heq
      cases hm
      have hcount := (hseen.counted t n (History.mem_still_snoc pre rfl)).2
      rw [hp.looked.2, hl.place.framesFrom hcount]
    · exact hl.below pre t n frames hpre
  · refine (List.mem_append.mp hm).elim (hl.tables type method n locals) fun hm => ?_
    cases List.mem_singleton.mp hm
    exact hp.table hs.toHasHome
  · rcases History.mem_of_mem_unwritten_snoc hm with hm | ⟨hm, hw⟩
    · exact hl.reads t slot signature held others hm
    · cases hm
      rw [← (hl.swap.spares hw).slots]
      exact hp.read
  · by_cases hset : ∃ t other values, a = .command (.setSlots t other values)
    · obtain ⟨t, other, values, rfl⟩ := hset
      exact hl.writes hs hseen hwhere hplace (hbegun t other values rfl) hthis
        (hadmits.write t other values rfl) hp
    · have hwrote : Moment.wrote? (.did a r) = none := by
        unfold Moment.wrote?
        split
        · rename_i heq
          cases heq
          exact absurd ⟨_, _, _, rfl⟩ hset
        · rfl
      exact hl.swap.snoc (hp.spares fun t values ha => hset ⟨t, frame, values, ha⟩) (.inl hwrote)

/-- Where the frames were counted, the one of the statement is found. So if it was not written, a
command was refused. -/
theorem FrameKnown.denied {before : History} (hl : vm₀.FrameKnown home frame l h vm)
    (hpre : before <+: h)
    (hbase : h.base? = some 2) (hinvoking : h.invoking? = some l) (htried : before.NotPutBack) :
    ∃ (pre : History) (t : ThreadId) (r : Except JdwpError Int) (post : History),
      before = pre ++ .sent (.frameCount t) r :: post ∧ (∀ m ∈ post, m.counts = false) ∧
        History.Denied t r post := by
  obtain ⟨pre, t, r, post, base, invoking, rfl, hcounts, hbase', hinvoking', hmisses⟩ := htried
  have hhistory : pre ++ .sent (.frameCount t) r :: post <+: h := hpre
  obtain ⟨rest, hrest⟩ := (List.prefix_append pre _).trans hhistory
  obtain rfl : base = 2 := by
    have hsame := History.base?_append_of_some hbase' rest
    rw [hrest, hbase] at hsame
    exact (Option.some.inj hsame).symm
  obtain rfl : invoking = l := by
    have hsame := History.invoking?_append_of_some hinvoking' rest
    rw [hrest, hinvoking] at hsame
    exact (Option.some.inj hsame).symm
  refine ⟨pre, t, r, post, rfl, hcounts, ?_⟩
  have hfound : ∀ (n : Int) (frames : List FrameInfo) (post : History),
      pre ++ .sent (.frameCount t) (.ok n) :: .sent (.frames t (n - 2) 1) (.ok frames) :: post <+:
        h → frames = [{ frameId := frame, location := invoking }] := by
    intro n frames post hpost
    refine hl.below pre t n frames ((List.prefix_append _ post).trans ?_)
    simpa using hpost
  cases hmisses with
  | uncounted e post => exact .uncounted e post
  | gone n post hlt =>
      have hmem : .sent (.frameCount t) (.ok n) ∈ h :=
        hpre.subset (List.mem_append_right _ List.mem_cons_self)
      exact absurd (hl.deep t n hmem) (by omega)
  | unseen n e post => exact .unseen n _ e post
  | none n post => cases hfound n [] post hhistory
  | other n f fs post hother =>
      obtain ⟨rfl, -⟩ := List.cons.inj (hfound n (f :: fs) post hhistory)
      simp [Location.sameMethod] at hother
  | refused n f fs values e post => exact .unwritten n _ (f :: fs) f.frameId values e post

end Vm

/-! ## Courses -/

namespace Told

variable {s s' s₁ : Told} {vm₀ : Vm} {frame : FrameId} {l : Location}

/-- The trace in flight goes on, or it is over. -/
theorem Invariant.frameKnown (hw : s.Invariant True home options)
    (hw' : s'.Invariant True home options)
    (hc : s.Change options s') {e : Episode} (hcurrent : s.chronicle.current = some e)
    (hthis : ∀ text, e.request.chain.qualifier ≠ .var text "this")
    (hl : vm₀.FrameKnown home frame l e.history s.world.vm) :
    s.chronicle.done.length < s'.chronicle.done.length ∨
      s'.chronicle.done = s.chronicle.done ∧ ∃ e', s'.chronicle.current = some e' ∧
        e'.request = e.request ∧ vm₀.FrameKnown home frame l e'.history s'.world.vm := by
  obtain ⟨m, hm, -, -⟩ := hw.manager
  obtain ⟨stop, hparked, hescorts⟩ := hw.parked
  have hescort := hescorts trivial e m hcurrent hm
  -- Only a deed of the trace reaches the frame. The thread runs above it, and a choice does not
  -- touch it.
  cases hc with
  | acts e' a next current leaves performs told =>
      obtain rfl := Option.some.inj (hcurrent.symm.trans current)
      refine .inr ⟨by rw [told]; rfl, e.snoc (.did a (s.world.perform a).1),
        by rw [told, Chronicle.tell, current]; rfl, rfl, ?_⟩
      have hleaves : TraceRun options e.request e.history (.act a next) := leaves
      refine hl.act hparked.stands hparked.depth hescort.seen hescort.whereabouts hparked.place
        hleaves.lawful.2.1 ?_ hthis performs
      rintro t other values rfl
      exact hleaves.starts ⟨_, rfl, .inl rfl⟩
  | hears e' event current same told =>
      obtain rfl := Option.some.inj (hcurrent.symm.trans current)
      refine .inr ⟨by rw [told]; rfl, e.snoc (.heard event),
        by rw [told, Chronicle.tell, current]; rfl, rfl, ?_⟩
      rw [same]
      exact hl.hear event
  | begins r current same told =>
      rw [hcurrent] at current
      cases current
  | ends e' current leaves same told =>
      refine .inl ?_
      rw [told, Chronicle.tell, current]
      simp
  | goes bound stop' goes told =>
      refine .inr ⟨by rw [told], e, told ▸ hcurrent, rfl, ?_⟩
      obtain ⟨stop'', hparked', -⟩ := hw'.parked
      have hplace := hl.place.of_bottom goes.bottom
      refine hl.of_spares hplace ⟨fun slot => ?_, ?_⟩
      · rw [← hplace.local? hparked'.stands, ← hl.place.local? hparked.stands]
        exact Vm.local?_of_bottom goes.bottom
      · rw [Vm.notedFor, goes.written, Vm.notedFor]
  | rests same told =>
      refine .inr ⟨by rw [told], e, told ▸ hcurrent, rfl, ?_⟩
      obtain ⟨suspended, hvm⟩ := same
      rw [hvm]
      exact hl.of_spares hl.place (.of_eq rfl rfl)

/-- All along a trace. -/
theorem Later.frameKnown (hw : s₁.Invariant True home options) {e : Episode}
    (hcurrent : s₁.chronicle.current = some e)
    (hthis : ∀ text, e.request.chain.qualifier ≠ .var text "this")
    (hl : vm₀.FrameKnown home frame l e.history s₁.world.vm) (hlater : s₁.Later True s) :
    s.Invariant True home options ∧ (s₁.chronicle.done.length < s.chronicle.done.length ∨
      s.chronicle.done = s₁.chronicle.done ∧ ∃ e', s.chronicle.current = some e' ∧
        e'.request = e.request ∧ vm₀.FrameKnown home frame l e'.history s.world.vm) := by
  refine hlater.induction (P := fun s => s₁.chronicle.done.length < s.chronicle.done.length ∨
    s.chronicle.done = s₁.chronicle.done ∧ ∃ e', s.chronicle.current = some e' ∧
      e'.request = e.request ∧ vm₀.FrameKnown home frame l e'.history s.world.vm) hw
    (.inr ⟨rfl, e, hcurrent, rfl, hl⟩) fun s s' hw hw' hc _ hs => ?_
  rcases hs with hlonger | ⟨hdone, e', hcurrent', hrequest, hl'⟩
  · exact .inl (Nat.lt_of_lt_of_le hlonger hc.done_length)
  · rcases hw.frameKnown hw' hc hcurrent' (hrequest ▸ hthis) hl' with
      hlonger | ⟨hdone', e'', h, hr, hl''⟩
    · exact .inl (hdone ▸ hlonger)
    · exact .inr ⟨hdone'.trans hdone, e'', h, hr.trans hrequest, hl''⟩

/-- When a trace delivers its final report, the source variable holds what it held when the trace
began, unless a command to put that back was refused. It was not written, or written twice: another
stream, and then what it held. No other variable of the statement was written. -/
theorem Course.source_restored {p : StreamProgram} (h : s₁.Course True p options)
    {done : List Episode} {request : TraceRequest} {before : History} {r : Report}
    (hbegins : s₁.chronicle = ⟨done, some ⟨request, []⟩⟩) (hlater : s₁.Later True s)
    (hnow : s.chronicle = ⟨done, some ⟨request, before ++ [.did (.deliver r) ()]⟩⟩)
    (hfinal : r.isFinal = true) (hthis : ∀ text, request.chain.qualifier ≠ .var text "this")
    (hrestore : ¬before.RestoreRefused) :
    let source := p.sourceVariable.slot
    s.world.vm.local? source = s₁.world.vm.local? source ∧
      (s.world.vm.writesTo source = s₁.world.vm.writesTo source ∨
        ∃ stream held, s₁.world.vm.local? source = some held ∧
          s.world.vm.writesTo source = s₁.world.vm.writesTo source ++ [stream, held]) ∧
      ∀ slot, slot ≠ source → s.world.vm.writesTo slot = s₁.world.vm.writesTo slot := by
  intro source
  obtain ⟨hw₁, -⟩ := h.counted
  obtain ⟨stop₁, hparked₁, -⟩ := hw₁.parked
  obtain ⟨⟨frame, l⟩, hplace₁⟩ : ∃ place, s₁.world.vm.places.reverse[1]? = some place := by
    have hdepth := hparked₁.depth
    rw [← Vm.length_places] at hdepth
    exact ⟨_, List.getElem?_eq_getElem (by rw [List.length_reverse]; omega)⟩
  have hplace₁ : s₁.world.vm.HasStatement frame l := hplace₁
  obtain ⟨hw, hknown⟩ := hlater.frameKnown hw₁ (e := ⟨request, []⟩) (by rw [hbegins]) hthis
    (Vm.frameKnown_nil hplace₁)
  obtain ⟨stop, hparked, -⟩ := hw.parked
  obtain ⟨hl, hsettled⟩ : s₁.world.vm.FrameKnown p.home frame l (before ++ [.did (.deliver r) ()])
      s.world.vm ∧ before.Settled := by
    rw [hbegins, hnow] at hknown
    rcases hknown with hlonger | ⟨-, e, he, -, hl⟩
    · exact absurd hlonger (Nat.lt_irrefl _)
    · cases he
      obtain ⟨m, -, -, hflight⟩ := hw.manager
      rw [hnow] at hflight
      obtain ⟨q, hleaves⟩ := hflight.remaining
      have hleaves : TraceRun options request (before ++ [.did (.deliver r) ()]) q := hleaves
      obtain ⟨state, hstate⟩ := r.isFinal_iff.mp hfinal
      have hadmits := hleaves.lawful.1.admitted before (.deliver r) () ⟨[], List.append_nil _⟩
      exact ⟨hl, (hadmits.final r state rfl hstate).2⟩
  have hlocal : ∀ slot, s.world.vm.local? slot = s.world.vm.slotOf frame slot := fun slot =>
    hl.place.local? hparked.stands
  have hlocal₁ : ∀ slot, s₁.world.vm.local? slot = s₁.world.vm.slotOf frame slot := fun slot =>
    hplace₁.local? hparked₁.stands
  have hnoted : ∀ slot, s.world.vm.writesTo slot = (s.world.vm.notedFor frame).filterMap fun x =>
      if x.1 = slot then some x.2 else none := fun slot => hl.place.writesTo hparked.stands
  have hnoted₁ : ∀ slot, s₁.world.vm.writesTo slot = (s₁.world.vm.notedFor frame).filterMap
      fun x => if x.1 = slot then some x.2 else none := fun slot => hplace₁.writesTo hparked₁.stands
  -- Not written; written and not put back, so a command for that was refused; or put back.
  cases hl.swap with
  | untouched spared unmade =>
      have hsame : ∀ slot, s.world.vm.writesTo slot = s₁.world.vm.writesTo slot := fun slot => by
        rw [hnoted, spared.noted, hnoted₁]
      exact ⟨by rw [hlocal, spared.slots, hlocal₁], .inl (hsame _), fun slot _ => hsame slot⟩
  | made stream held before' slots noted first sub notBack base invoking =>
      have hsub : before.Substituted := (History.substituted_snoc.mp sub).resolve_right
        fun hnew => hnew.2.1 rfl
      have hnotBack : ¬before.PutBack := fun hback =>
        notBack ((History.putBack_snoc _ _).mpr (.inl hback))
      have htried := (hsettled.source hsub).resolve_left hnotBack
      exact absurd ⟨hsub, hnotBack, hl.denied (List.prefix_append _ _) base invoking htried⟩
        hrestore
  | back stream held before' slots noted sub done =>
      have hsource : p.home.info.slot = source := rfl
      rw [hsource] at before' noted
      refine ⟨by rw [hlocal, slots, hlocal₁], .inr ⟨stream, held, by rw [hlocal₁, before'], ?_⟩,
        fun slot hne => ?_⟩
      · rw [hnoted, noted, hnoted₁]
        simp
      · rw [hnoted, noted, hnoted₁]
        simp [Ne.symm hne]

theorem source_restored_of_held : ∃ (s : Told) (before : History) (r : Report),
    s.chronicle = ⟨[], some ⟨heldRequest, before ++ [.did (.deliver r) ()]⟩⟩ ∧ before.PutBack ∧
      s.world.vm.local? 1 = heldStart.world.vm.local? 1 ∧
      (s.world.vm.writesTo 1 = heldStart.world.vm.writesTo 1 ∨
        ∃ stream held, heldStart.world.vm.local? 1 = some held ∧
          s.world.vm.writesTo 1 = heldStart.world.vm.writesTo 1 ++ [stream, held]) ∧
      ∀ slot, slot ≠ 1 → s.world.vm.writesTo slot = heldStart.world.vm.writesTo slot := by
  obtain ⟨s, before, expression, failure, hlater, hnow, -, -, hback, -⟩ := heldStart_reports
  have hthis : ∀ text, heldRequest.chain.qualifier ≠ .var text "this" := by
    intro text (heq : Qualifier.var "numbers" "numbers" = _)
    exact absurd (Qualifier.var.inj heq).2 (by decide)
  exact ⟨s, before, .failed expression failure, hnow, hback, Course.source_restored
    heldStart_course rfl hlater hnow rfl hthis fun hrefused => hrefused.2.1 hback⟩

end Told

end StreamTrace
