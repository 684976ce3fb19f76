import StreamTrace.Proofs.Debugger.DebuggeeTalk
import StreamTrace.Proofs.Jvm.TypeSweep

/-!
# Searching a hierarchy of types

The bridge looks for a method, or for a type of some name, in a type and in the types above it. It
asks the target what lies above a type and remembers what it was told about methods and names. On
every target that keeps to what it says about its types, such a search is a sweep.
-/

namespace StreamTrace

/-! ## Hierarchies -/

/-- What a target says about its types. It may refuse to name a superclass, as it does for
interfaces. The signatures are texts of a virtual machine: where one is cut inside a character
(`JavaType.Splits`), the debugger would end in a fault and not in the `name` that it gets here. -/
structure Hierarchy where
  superclass : TypeId → Except UInt16 (Option TypeId)
  interfaces : TypeId → List TypeId
  methods : TypeId → List MethodInfo
  signature : TypeId → String

namespace Hierarchy

/-- What lies directly above a type. -/
def above (h : Hierarchy) (type : TypeId) : List TypeId :=
  (match h.superclass type with
    | .ok superclass => superclass.toList
    | .error _ => []) ++ h.interfaces type

def name (h : Hierarchy) (type : TypeId) : String :=
  (signatureToTypeName? (h.signature type)).getD (h.signature type)

def method? (h : Hierarchy) (name descriptor : String) (type : TypeId) : Option MethodInfo :=
  (h.methods type).find? fun m => m.name == name && m.signature == descriptor

/-- The type itself has a method of that name with that descriptor. -/
def Declares (h : Hierarchy) (name descriptor : String) (type : TypeId) : Prop :=
  ∃ m ∈ h.methods type, m.name = name ∧ m.signature = descriptor

theorem declares_iff {h : Hierarchy} {name descriptor : String} {type : TypeId} :
    h.Declares name descriptor type ↔ h.method? name descriptor type ≠ none := by
  rw [ne_eq, method?, List.find?_eq_none]
  simp [Declares]

theorem method?_spec {h : Hierarchy} {name descriptor : String} {type : TypeId} {m : MethodInfo}
    (hm : h.method? name descriptor type = some m) :
    m ∈ h.methods type ∧ m.name = name ∧ m.signature = descriptor := by
  have hnamed := List.find?_some hm
  simp only [Bool.and_eq_true, beq_iff_eq] at hnamed
  exact ⟨List.mem_of_find?_eq_some hm, hnamed⟩

end Hierarchy

section Reports

variable {τ : Type} (answer : Answering τ) (I : τ → Prop)

/-- In each of these states the target answers the command so, and goes on in one of them. -/
def Replies (c : Command) (r : c.Answer) : Prop := ∀ g, I g → ∃ g', I g' ∧ answer g c = (r, g')

/-- The target says that about a type and what lies above it, whenever it is asked. Its signatures
are as for every `Hierarchy`. -/
structure Hierarchy.Reports (h : Hierarchy) (start : TypeId) : Prop where
  superclass {n : Nat} {t : TypeId} (ht : Reached h.above start n t) :
    Replies answer I (.superclass t) ((h.superclass t).mapError .vm)
  interfaces {n : Nat} {t : TypeId} (ht : Reached h.above start n t) :
    Replies answer I (.typeInterfaces t) (.ok (h.interfaces t))
  methods {n : Nat} {t : TypeId} (ht : Reached h.above start n t) :
    Replies answer I (.typeMethods t) (.ok (h.methods t))
  signature {n : Nat} {t : TypeId} (ht : Reached h.above start n t) :
    Replies answer I (.typeSignature t) (.ok (h.signature t))

end Reports

/-- What the bridge remembers of a hierarchy is true. -/
structure BridgeState.Recalls (s : BridgeState) (h : Hierarchy) : Prop where
  methods : ∀ t infos, s.methods.get? t = some infos → infos = h.methods t
  names : ∀ t name, s.typeNames.get? t = some name → name = h.name t

theorem BridgeState.recalls_empty (h : Hierarchy) : ({} : BridgeState).Recalls h := ⟨nofun, nofun⟩

/-- The type that a command asks the superclass of. -/
def Command.climbs? : Command → Option TypeId
  | .superclass type => some type
  | _ => none

/-- The types from which a search has climbed. -/
def Talk.climbed {τ : Type} (w : Talk τ) : List TypeId := w.sent.filterMap Command.climbs?

/-! ## Routines that are told about types -/

namespace Bridge

open Routine

variable {α β τ : Type} {answer : Answering τ} {I : τ → Prop} {h : Hierarchy}

/-- Whatever it remembers, the routine comes to that, and climbs from these types on the way. -/
def SearchYields (answer : Answering τ) (I : τ → Prop) (h : Hierarchy) (t : BridgeRoutine α) (a : α)
    (climbed : List TypeId) : Prop :=
  ∀ s w, s.Recalls h → I w.debuggee → t.Meets (.talk answer)
    (fun r s' w' => r = a ∧ s'.Recalls h ∧ I w'.debuggee ∧ w'.climbed = w.climbed ++ climbed)
    (fun _ _ _ => False) s w

theorem SearchYields.meets_bind {t : BridgeRoutine α} {f : α → BridgeRoutine β} {a : α}
    {climbed : List TypeId} {ok : β → BridgeState → Talk τ → Prop}
    {err : TraceError → BridgeState → Talk τ → Prop} {s : BridgeState} {w : Talk τ}
    (ht : SearchYields answer I h t a climbed) (hs : s.Recalls h) (hw : I w.debuggee)
    (hnext : ∀ s' w', s'.Recalls h → I w'.debuggee → w'.climbed = w.climbed ++ climbed →
      (f a).Meets (.talk answer) ok err s' w') :
    (t >>= f).Meets (.talk answer) ok err s w := by
  refine Routine.meets_bind.mpr (Routine.Meets.mono (ht s w hs hw) ?_ fun _ _ _ h => h.elim)
  rintro _ s' w' ⟨rfl, hs', hw', hclimbed⟩
  exact hnext s' w' hs' hw' hclimbed

theorem SearchYields.bind {t : BridgeRoutine α} {f : α → BridgeRoutine β} {a : α} {b : β}
    {climbed climbed' : List TypeId} (ht : SearchYields answer I h t a climbed)
    (hf : SearchYields answer I h (f a) b climbed') :
    SearchYields answer I h (t >>= f) b (climbed ++ climbed') := by
  refine fun s w hs hw => ht.meets_bind hs hw fun s' w' hs' hw' hclimbed => ?_
  rw [← List.append_assoc, ← hclimbed]
  exact hf s' w' hs' hw'

/-- A routine that goes on from one that does not climb. -/
theorem SearchYields.then {t : BridgeRoutine α} {f : α → BridgeRoutine β} {a : α} {b : β}
    {climbed : List TypeId} (ht : SearchYields answer I h t a [])
    (hf : SearchYields answer I h (f a) b climbed) :
    SearchYields answer I h (t >>= f) b climbed := SearchYields.bind ht hf

theorem searchYields_pure (a : α) : SearchYields answer I h (pure a) a [] :=
  fun _ _ hs hw => Routine.meets_pure.mpr ⟨rfl, hs, hw, (List.append_nil _).symm⟩

theorem searchYields_modify {f : BridgeState → BridgeState}
    (hf : ∀ s, s.Recalls h → (f s).Recalls h) :
    SearchYields answer I h (modify f) ⟨⟩ [] :=
  fun s _ hs hw => Routine.meets_modify.mpr ⟨rfl, hf s hs, hw, (List.append_nil _).symm⟩

theorem searchYields_answer {c : Command} {r : c.Answer} (hc : Replies answer I c r) :
    SearchYields answer I h (Routine.answer c) r c.climbs?.toList := by
  intro s w hs hw
  obtain ⟨g', hg', hanswer⟩ := hc w.debuggee hw
  rw [Routine.meets_answer]
  refine ⟨trivial, fun r' w' hr => ?_⟩
  obtain ⟨rfl, rfl⟩ := Prod.mk.inj (show (r', w') = _ from hr)
  refine ⟨congrArg Prod.fst hanswer, hs, (congrArg Prod.snd hanswer).symm ▸ hg', ?_⟩
  show (w.sent ++ [c]).filterMap Command.climbs? = _
  rw [List.filterMap_append]
  cases hclimbs : c.climbs? <;> simp [Talk.climbed, hclimbs]

theorem searchYields_command {c : Command} {r : c.Reply} (hc : Replies answer I c (.ok r))
    (hclimbs : c.climbs? = none) : SearchYields answer I h (command c) r [] := by
  have hanswer := searchYields_answer (h := h) hc
  rw [hclimbs] at hanswer
  exact hanswer.then (searchYields_pure r)

section

variable {start type : TypeId} {n : Nat} (hreports : h.Reports answer I start)
  (htype : Reached h.above start n type)

include hreports htype

theorem methodsOf_searchYields : SearchYields answer I h (methodsOf type) (h.methods type) [] := by
  intro s w hs hw
  refine Routine.meets_bind.mpr (Routine.meets_get.mpr ?_)
  cases hknown : s.methods.get? type with
  | some infos =>
      rw [hs.methods type infos hknown]
      exact searchYields_pure _ s w hs hw
  | none =>
      refine SearchYields.then (searchYields_command (hreports.methods htype) rfl) ?_ s w hs hw
      refine SearchYields.then (searchYields_modify fun s' hs' => ?_) (searchYields_pure _)
      refine { hs' with methods := fun t infos ht => ?_ }
      change (s'.methods.set type (h.methods type)).get? t = some infos at ht
      rw [Table.get?_set] at ht
      split at ht
      · cases ht
        rw [‹type = t›]
      · exact hs'.methods t infos ht

theorem typeName_searchYields : SearchYields answer I h (typeName type) (h.name type) [] := by
  intro s w hs hw
  refine Routine.meets_bind.mpr (Routine.meets_get.mpr ?_)
  cases hknown : s.typeNames.get? type with
  | some name =>
      rw [hs.names type name hknown]
      exact searchYields_pure _ s w hs hw
  | none =>
      refine SearchYields.then (searchYields_command (hreports.signature htype) rfl) ?_ s w hs hw
      refine SearchYields.then (searchYields_modify fun s' hs' => ?_) (searchYields_pure _)
      refine { hs' with names := fun t name ht => ?_ }
      change (s'.typeNames.set type (h.name type)).get? t = some name at ht
      rw [Table.get?_set] at ht
      split at ht
      · cases ht
        rw [‹type = t›]
      · exact hs'.names t name ht

theorem supertypes_searchYields :
    SearchYields answer I h (supertypes type) (h.above type) [type] := by
  have hasked := searchYields_answer (h := h) (hreports.superclass htype)
  have hrest : ∀ superclass : Option TypeId, SearchYields answer I h (do
      let interfaces : List TypeId ← command (.typeInterfaces type)
      return superclass.toList ++ interfaces) (superclass.toList ++ h.interfaces type) [] :=
    fun _ => SearchYields.then (searchYields_command (hreports.interfaces htype) rfl)
      (searchYields_pure _)
  unfold Hierarchy.above
  cases hreply : h.superclass type with
  | ok superclass =>
      rw [hreply] at hasked
      exact hasked.bind (SearchYields.then (searchYields_pure superclass) (hrest superclass))
  | error code =>
      rw [hreply] at hasked
      exact hasked.bind (SearchYields.then (searchYields_pure none) (hrest none))

end

section

variable {start : TypeId} (hreports : h.Reports answer I start)

include hreports

/-- A search through a hierarchy is a sweep. -/
theorem searchTypes_searchYields {look : TypeId → BridgeRoutine (Option α)}
    {find : TypeId → Option α}
    (hlook : ∀ n t, Reached h.above start n t → SearchYields answer I h (look t) (find t) [])
    {fuel : Nat} {seen queue : List TypeId}
    (hqueue : ∀ t ∈ queue, ∃ n, Reached h.above start n t) :
    SearchYields answer I h (searchTypes look fuel seen queue)
    (sweep h.above find fuel seen queue).1
      (sweep h.above find fuel seen queue).2 := by
  induction fuel generalizing seen queue with
  | zero => exact searchYields_pure none
  | succ fuel ih =>
      unfold searchTypes
      rw [sweep]
      cases hnext : queue.dropWhile (· ∈ seen) with
      | nil => exact searchYields_pure none
      | cons type rest =>
          have hleft : ∀ t ∈ type :: rest, ∃ n, Reached h.above start n t := fun t ht =>
            hqueue t (List.dropWhile_subset _ (hnext ▸ ht))
          obtain ⟨n, htype⟩ := hleft type List.mem_cons_self
          have hlooked := hlook n type htype
          dsimp only
          cases hfind : find type with
          | some a =>
              rw [hfind] at hlooked
              exact hlooked.then (searchYields_pure _)
          | none =>
              rw [hfind] at hlooked
              have habove := supertypes_searchYields hreports htype
              refine hlooked.then (habove.bind (ih fun t ht => ?_))
              rcases List.mem_append.mp ht with hrest | hmem
              · exact hleft t (List.mem_cons_of_mem _ hrest)
              · exact ⟨n + 1, .step htype hmem⟩

/-- What a search from a type comes to, and the different types that it climbs from. -/
theorem searchTypes_sweeps {look : TypeId → BridgeRoutine (Option α)} {find : TypeId → Option α}
    (hlook : ∀ n t, Reached h.above start n t → SearchYields answer I h (look t) (find t) []) :
    ∃ climbed : List TypeId, climbed.Nodup ∧ (∀ t ∈ climbed, ∃ n, Reached h.above start n t) ∧
      SearchYields answer I h (searchTypes look typeSearchBound [] [start])
        (sweep h.above find typeSearchBound [] [start]).1 climbed := by
  have hinit : Sweeping h.above find start 0 [] [start] [] := .init
  have hpasses : (sweep h.above find typeSearchBound [] [start]).2.Nodup ∧ _ := hinit.passes
  refine ⟨_, hpasses.1, fun t ht => (hpasses.2 t ht).2, searchTypes_searchYields hreports hlook ?_⟩
  rintro t ht
  rw [List.mem_singleton.mp ht]
  exact ⟨0, .start⟩

end

end Bridge

/-! ## What is found -/

/-- A type in so many steps from the start declares the method, and none nearer to the start does;
or none does, and the start is named. -/
inductive Hierarchy.Finds (h : Hierarchy) (start : TypeId) (name descriptor : String) :
    Except TraceError (TypeId × MethodInfo) → Prop
  | found {n : Nat} {declaring : TypeId} {m : MethodInfo}
    (reached : Reached h.above start n declaring) (declares : m ∈ h.methods declaring)
    (named : m.name = name) (described : m.signature = descriptor)
    (nearest : ∀ k t, Reached h.above start k t → h.Declares name descriptor t → n ≤ k) :
    Finds h start name descriptor (.ok (declaring, m))
  | missing (none : ∀ k t, Reached h.above start k t → ¬h.Declares name descriptor t) :
    Finds h start name descriptor (.error (.methodNotFound name descriptor (h.name start)))

/-- Each of the types from which the search climbed since then is one that is reached, and it
climbed from each once. -/
def Hierarchy.ClimbsOnce {τ : Type} (h : Hierarchy) (start : TypeId) (w w' : Talk τ) : Prop :=
  ∃ climbed : List TypeId, w'.climbed = w.climbed ++ climbed ∧ climbed.Nodup ∧
    ∀ t ∈ climbed, ∃ n, Reached h.above start n t

namespace Bridge

open Routine

variable {τ : Type} {answer : Answering τ} {I : τ → Prop} {h : Hierarchy} {start : TypeId}
  {s : BridgeState} {w : Talk τ} (hreports : h.Reports answer I start) (hs : s.Recalls h)
  (hw : I w.debuggee)

include hreports hs hw

/-- A method is found at the nearest type that declares it. Identifiers of types have 64 bits, so
the search comes to an end. -/
theorem method_finds (name descriptor : String) :
    (method start name descriptor).Meets (.talk answer)
      (fun r s' w' => h.Finds start name descriptor (.ok r) ∧ s'.Recalls h ∧ I w'.debuggee ∧
        h.ClimbsOnce start w w')
      (fun e s' w' => ((∀ n t, Reached h.above start n t → t < UInt64.size) →
        h.Finds start name descriptor (.error e)) ∧ s'.Recalls h ∧ I w'.debuggee ∧
        h.ClimbsOnce start w w') s w := by
  let find (t : TypeId) : Option (TypeId × MethodInfo) := (h.method? name descriptor t).map (t, ·)
  have hfind : ∀ t, h.Declares name descriptor t ↔ find t ≠ none := fun t => by
    rw [Hierarchy.declares_iff]
    simp [find]
  have hinit : Sweeping h.above find start 0 [] [start] [] := .init
  have hlook : ∀ n t, Reached h.above start n t → SearchYields answer I h (do
      let methods ← methodsOf t
      return (methods.find? fun m => m.name == name && m.signature == descriptor).map (t, ·))
      (find t) [] := fun _ t ht => SearchYields.then (methodsOf_searchYields hreports ht)
        (searchYields_pure (find t))
  obtain ⟨climbed, hnodup, hclimbed, hsearched⟩ := searchTypes_sweeps hreports hlook
  have honce : ∀ w' : Talk τ, w'.climbed = w.climbed ++ climbed → h.ClimbsOnce start w w' :=
    fun w' hw' => ⟨climbed, hw', hnodup, hclimbed⟩
  refine hsearched.meets_bind hs hw fun s' w' hs' hw' hclimbed' => ?_
  cases hswept : (sweep h.above find typeSearchBound [] [start]).1 with
  | some found =>
      obtain ⟨n, t, ht, hfound, hnearest⟩ := hinit.found hswept
      obtain ⟨m, hm, rfl⟩ := Option.map_eq_some_iff.mp hfound
      obtain ⟨hmem, hname, hdescriptor⟩ := Hierarchy.method?_spec hm
      refine Routine.meets_pure.mpr ⟨.found ht hmem hname hdescriptor fun k t' ht' hdeclares => ?_,
        hs', hw', honce w' hclimbed'⟩
      exact hnearest k t' ht' ((hfind t').mp hdeclares)
  | none =>
      refine (typeName_searchYields hreports .start).meets_bind hs' hw'
        fun s'' w'' hs'' hw'' hsame => ?_
      rw [List.append_nil] at hsame
      refine Routine.meets_throw.mpr ⟨fun hids => .missing fun k t ht hdeclares => ?_, hs'', hw'',
        honce w'' (hsame.trans hclimbed')⟩
      exact (hfind t).mp hdeclares (hinit.missing hids .nil nofun (Nat.le_refl _) hswept ht)

/-- A value is an instance of a type if a type with that name is reached from its own. -/
theorem searchName_finds (hids : ∀ n t, Reached h.above start n t → t < UInt64.size)
    (expected : String) :
    (do
      let look (t : TypeId) : BridgeRoutine (Option Unit) := do
        return if (← typeName t) = expected then some () else none
      return (← searchTypes look typeSearchBound [] [start]).isSome : BridgeRoutine Bool).Meets
      (.talk answer)
      (fun r s' w' => (r = true ↔ ∃ n t, Reached h.above start n t ∧ h.name t = expected) ∧
        s'.Recalls h ∧ I w'.debuggee ∧ h.ClimbsOnce start w w')
      (fun _ _ _ => False) s w := by
  let find (t : TypeId) : Option Unit := if h.name t = expected then some () else none
  have hinit : Sweeping h.above find start 0 [] [start] [] := .init
  have hlook : ∀ n t, Reached h.above start n t → SearchYields answer I h (do
      return if (← typeName t) = expected then some () else none) (find t) [] :=
    fun _ t ht => SearchYields.then (typeName_searchYields hreports ht) (searchYields_pure (find t))
  obtain ⟨climbed, hnodup, hclimbed, hsearched⟩ := searchTypes_sweeps hreports hlook
  refine hsearched.meets_bind hs hw fun s' w' hs' hw' hclimbed' => ?_
  refine Routine.meets_pure.mpr ⟨?_, hs', hw', climbed, hclimbed', hnodup, hclimbed⟩
  cases hswept : (sweep h.above find typeSearchBound [] [start]).1 with
  | some a =>
      obtain ⟨n, t, ht, hfound, -⟩ := hinit.found hswept
      refine ⟨fun _ => ⟨n, t, ht, ?_⟩, fun _ => rfl⟩
      by_contra hother
      rw [show find t = none from if_neg hother] at hfound
      cases hfound
  | none =>
      refine ⟨nofun, fun ⟨n, t, ht, hname⟩ => ?_⟩
      have hnone : find t = none := hinit.missing hids .nil nofun (Nat.le_refl _) hswept ht
      rw [show find t = some () from if_pos hname] at hnone
      cases hnone

/-- A value is an instance of the types that are reached from its own, and null is none of any. -/
theorem isInstanceOf_finds (hids : ∀ n t, Reached h.above start n t → t < UInt64.size) {v : Value}
    (hobject : ∀ id, v.objectId? = some id → Replies answer I (.objectType id) (.ok start))
    (expected : String) :
    (isInstanceOf v expected).Meets (.talk answer)
      (fun found s' w' => (found = true ↔ v.objectId? ≠ none ∧
          ∃ n t, Reached h.above start n t ∧ h.name t = expected) ∧
        s'.Recalls h ∧ I w'.debuggee ∧ h.ClimbsOnce start w w')
      (fun _ _ _ => False) s w := by
  unfold isInstanceOf
  cases hid : v.objectId? with
  | none =>
      refine Routine.meets_pure.mpr ⟨⟨nofun, fun hnull => absurd rfl hnull.1⟩, hs, hw, [], ?_⟩
      exact ⟨(List.append_nil _).symm, .nil, nofun⟩
  | some id =>
      have htype := searchYields_command (h := h) (hobject id hid) rfl
      refine htype.meets_bind hs hw fun s' w' hs' hw' hsame => ?_
      rw [List.append_nil] at hsame
      refine Routine.Meets.mono (searchName_finds hreports hs' hw' hids expected) ?_
        fun _ _ _ h => h
      rintro found s'' w'' ⟨hfound, hs'', hw'', climbed, hclimbed, hrest⟩
      refine ⟨hfound.trans ⟨fun h => ⟨nofun, h⟩, And.right⟩, hs'', hw'', climbed, ?_, hrest⟩
      rw [hclimbed, hsame]

end Bridge

end StreamTrace
