import StreamTrace.Proofs.Chain.Codec

/-!
# Places of a chain that was read

A chain has one place per call, in the order of the calls, unless one of its calls has no method in
the resolver's table: then the first such call decides the failure. A chain that is read from its
written form, amended or not, is the chain that was written, so these are its places too.
-/

namespace StreamTrace

open Json (Amends)

namespace ElementType

theorem streamType_injective {t t' : ElementType} (h : t.streamType = t'.streamType) : t = t' := by
  cases t <;> cases t' <;> first | rfl | exact absurd h (by decide)

theorem mem_all (t : ElementType) : t ∈ all := by
  cases t <;> decide

end ElementType

namespace StreamCall

/-- Whether the call is made on a stream interface for which the resolver's table
(`ElementType.streamMethod?`) lists such a method. This is what a method of a call is from here on.
The interfaces themselves have less: the table gives every interface of primitive elements the same
methods, also `mapToInt` to the one of `int`. -/
def hasMethod (c : StreamCall) : Bool :=
  ElementType.all.any fun t =>
    t.streamType == c.declaringType && (t.streamMethod? c.name c.arguments.length).isSome

/-- The failure of a call without a method. -/
def refusal (c : StreamCall) : TraceError :=
  .placeNotFound c.name
    (if ElementType.all.any (·.streamType == c.declaringType) then "no such stream method"
    else "declaring type is not a stream interface")

/-- The method behind a call has its name and its parameter types; the class that declares it and
its return type come from the stream interface. -/
structure PlacedAt (c : StreamCall) (m : MethodSignature) : Prop where
  name : m.name = c.name
  argumentTypes : m.argumentTypes = c.arguments
  declared : ∃ t : ElementType, t.streamType = c.declaringType ∧
    t.streamMethod? c.name c.arguments.length = some (m.containingClass, m.returnType)

/-- A call has a place exactly if it has a method. -/
theorem place_cases (c : StreamCall) :
    (c.hasMethod = true ∧ ∃ m, c.place = .ok m ∧ c.PlacedAt m) ∨
      c.hasMethod = false ∧ c.place = .error c.refusal := by
  cases htype : ElementType.ofStreamType? c.declaringType with
  | none =>
      have hother : ∀ t ∈ ElementType.all, ¬(t.streamType == c.declaringType) = true :=
        List.find?_eq_none.mp htype
      have hno : ElementType.all.any (·.streamType == c.declaringType) = false :=
        List.any_eq_false.mpr hother
      refine .inr ⟨List.any_eq_false.mpr fun t ht => by simp [hother t ht], ?_⟩
      rw [place, htype, refusal, hno]
      rfl
  | some t =>
      have hdeclaring : t.streamType = c.declaringType := by simpa using List.find?_some htype
      have hsome : ElementType.all.any (·.streamType == c.declaringType) = true :=
        List.any_eq_true.mpr ⟨t, t.mem_all, by simpa using hdeclaring⟩
      cases hmethod : t.streamMethod? c.name c.arguments.length with
      | none =>
          refine .inr ⟨List.any_eq_false.mpr fun t' _ hboth => ?_, ?_⟩
          · obtain ⟨ht', hmethod'⟩ := Bool.and_eq_true_iff.mp hboth
            obtain rfl := ElementType.streamType_injective
              (hdeclaring.trans (beq_iff_eq.mp ht').symm)
            rw [hmethod] at hmethod'
            cases hmethod'
          · rw [place, htype, refusal, hsome]
            simp only [hmethod]
            rfl
      | some declared =>
          refine .inl ⟨List.any_eq_true.mpr ⟨t, t.mem_all, by simp [hdeclaring, hmethod]⟩, ?_⟩
          refine ⟨⟨declared.1, c.name, c.arguments, declared.2⟩, ?_, rfl, rfl, t, hdeclaring,
            hmethod⟩
          rw [place, htype]
          simp only [hmethod]
          rfl

/-- Calls that all have methods have one place each, in order. -/
theorem mapM_place_ok {calls : List StreamCall} (h : ∀ call ∈ calls, call.hasMethod = true) :
    ∃ ms, calls.mapM place = .ok ms ∧ List.Forall₂ PlacedAt calls ms := by
  induction calls with
  | nil => exact ⟨[], rfl, .nil⟩
  | cons call rest ih =>
      obtain ⟨ms, hms, hplaced⟩ := ih fun call hcall => h call (List.mem_cons_of_mem _ hcall)
      rcases call.place_cases with ⟨-, m, hm, hm'⟩ | ⟨hnone, -⟩
      · refine ⟨m :: ms, ?_, .cons hm' hplaced⟩
        rw [List.mapM_cons, hm, hms]
        rfl
      · rw [h call List.mem_cons_self] at hnone
        cases hnone

/-- The first call without a method decides the failure. -/
theorem mapM_place_error {calls : List StreamCall} {call : StreamCall}
    (h : calls.find? (!·.hasMethod) = some call) : calls.mapM place = .error call.refusal := by
  induction calls with
  | nil => cases h
  | cons first rest ih =>
      rw [List.mapM_cons]
      rcases first.place_cases with ⟨hmethod, m, hm, -⟩ | ⟨hnone, hm⟩
      · rw [List.find?_cons_of_neg (by simp [hmethod])] at h
        rw [hm, ih h]
        rfl
      · rw [List.find?_cons_of_pos (by simp [hnone])] at h
        cases h
        rw [hm]
        rfl

end StreamCall

namespace StreamChain

/-- The calls of a chain, the consuming call last. -/
def calls (c : StreamChain) : List StreamCall := c.intermediate ++ [c.terminal.toStreamCall]

/-- What the places of a chain are places of. -/
structure PlacedAt (c : StreamChain) (p : Places) : Prop where
  ofCall : ∀ text signature, c.qualifier = .call text signature → p.source = some signature
  ofVar : ∀ text name, c.qualifier = .var text name → p.source = none
  intermediate : List.Forall₂ StreamCall.PlacedAt c.intermediate p.intermediate
  terminal : c.terminal.toStreamCall.PlacedAt p.terminal

theorem places_ok {c : StreamChain} (h : ∀ call ∈ c.calls, call.hasMethod = true) :
    ∃ p, c.places = .ok p ∧ c.PlacedAt p := by
  obtain ⟨ms, hms, hplaced⟩ := StreamCall.mapM_place_ok fun call hcall =>
    h call (List.mem_append_left _ hcall)
  rcases c.terminal.toStreamCall.place_cases with ⟨-, m, hm, hm'⟩ | ⟨hnone, -⟩
  · refine ⟨⟨c.qualifier.method?, ms, m⟩, ?_, ?_, ?_, hplaced, hm'⟩
    · rw [places, hms]
      show (c.terminal.place >>= fun terminal => pure _) = _
      rw [hm]
      rfl
    · rintro text signature hq
      rw [hq, Qualifier.method?]
    · rintro text name hq
      rw [hq, Qualifier.method?]
  · rw [h _ (List.mem_append_right _ List.mem_cons_self)] at hnone
    cases hnone

theorem places_error {c : StreamChain} {call : StreamCall}
    (h : c.calls.find? (!·.hasMethod) = some call) : c.places = .error call.refusal := by
  rw [calls, List.find?_append] at h
  rw [places]
  cases hfirst : c.intermediate.find? (!·.hasMethod) with
  | some first =>
      rw [hfirst, Option.some_or] at h
      cases h
      rw [StreamCall.mapM_place_error hfirst]
      rfl
  | none =>
      rw [hfirst, Option.none_or] at h
      obtain ⟨ms, hms, -⟩ := StreamCall.mapM_place_ok fun call hcall => by
        simpa using List.find?_eq_none.mp hfirst call hcall
      obtain rfl : call = c.terminal.toStreamCall :=
        List.mem_singleton.mp (List.mem_of_find?_eq_some h)
      have hnone : (c.terminal.toStreamCall).hasMethod = false := by simpa using List.find?_some h
      rcases c.terminal.toStreamCall.place_cases with ⟨hmethod, -⟩ | ⟨-, hm⟩
      · rw [hnone] at hmethod
        cases hmethod
      · rw [hms]
        show (c.terminal.place >>= fun terminal => pure _) = _
        rw [hm]
        rfl

/-- A chain is read back from its written form, also from an amended one. It has the places of its
calls, or it fails at the first call without a method in the table. -/
theorem resolves_read_back (c : StreamChain) {j : Json} (h : Amends MayGo c.toJson j) :
    ofJson? j = some c ∧
    (∀ p, c.places = .ok p → c.PlacedAt p) ∧
    ∀ e, c.places = .error e ↔
      ∃ call, c.calls.find? (!·.hasMethod) = some call ∧ e = call.refusal := by
  refine ⟨ofJson?_amended h, ?_⟩
  cases hfirst : c.calls.find? (!·.hasMethod) with
  | none =>
      obtain ⟨p, hp, hplaced⟩ := places_ok fun call hcall => by
        simpa using List.find?_eq_none.mp hfirst call hcall
      rw [hp]
      refine ⟨fun p' hp' => Except.ok.inj hp' ▸ hplaced, fun e => ⟨nofun, ?_⟩⟩
      rintro ⟨_, hcall, -⟩
      cases hcall
  | some call =>
      rw [places_error hfirst]
      refine ⟨nofun, fun e => ⟨fun he => ⟨call, rfl, (Except.error.inj he).symm⟩, ?_⟩⟩
      rintro ⟨_, hcall, rfl⟩
      cases hcall
      rfl

/-- Read from an object without element type and text range in a call, and with a member of
another writer, `ints().boxed().toList()` has the places of its three methods. -/
theorem resolves_read_back_of_foreign :
    let boxed : StreamCall := ⟨"boxed", [], "java.util.stream.IntStream", none, some .int, {}⟩
    let c : StreamChain :=
      { text := "ints().boxed().toList()"
        qualifier := .call "ints()" ⟨"Main", "ints", [], "java.util.stream.IntStream"⟩
        intermediate := [boxed]
        terminal := ⟨⟨"toList", [], "java.util.stream.Stream", none, none, {}⟩, "java.util.List"⟩ }
    let call : Json := .obj [("name", .str "boxed"), ("arguments", .arr []),
      ("declaringType", .str "java.util.stream.IntStream"),
      ("typeAfter", .str "java.lang.Integer")]
    let j : Json := .obj [("version", .int 2), ("text", .str c.text),
      ("qualifierExpression", c.qualifier.toJson), ("intermediateCalls", .arr [call]),
      ("terminationCall", c.terminal.toJson)]
    Amends MayGo c.toJson j ∧ ofJson? j = some c ∧ (c.places.map Places.all).toOption =
      some [⟨"Main", "ints", [], "java.util.stream.IntStream"⟩,
        ⟨"java.util.stream.IntStream", "boxed", [], "java.util.stream.Stream"⟩,
        ⟨"java.util.stream.Stream", "toList", [], "java.util.List"⟩] := by
  intro boxed c call j
  have hnothing : ∀ m ∈ ([] : List (String × Json)), m.1 ∉ boxed.members.map (·.1) := by simp
  have hversion : ∀ m ∈ [("version", Json.int 2)], m.1 ∉
      ["text", "qualifierExpression", "intermediateCalls", "terminationCall"] := by decide
  have hcall : Amends MayGo boxed.toJson call :=
    .obj (.keep _ (.same _) (.keep _ (.same _) (.keep _ (.same _) (.drop (.inl ⟨by simp, rfl⟩)
      (.keep _ (.same _) (.drop (.inr ⟨rfl, rfl⟩) .nil)))))) hnothing (.refl _)
  have h : Amends MayGo c.toJson j :=
    .obj (.keep _ (.same _) (.keep _ (.same _) (.keep _ (.arr (.cons hcall .nil))
      (.keep _ (.same _) .nil)))) hversion (List.perm_append_singleton _ _).symm
  exact ⟨h, (resolves_read_back c h).1, rfl⟩

end StreamChain

end StreamTrace
