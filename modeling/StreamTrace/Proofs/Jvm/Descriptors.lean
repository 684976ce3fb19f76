import Mathlib.Data.List.Forall2
import StreamTrace.Jvm.MethodSignature
import StreamTrace.Proofs.Jvm.Signatures

/-!
# Method descriptors

A descriptor is read exactly as a list of signatures in parentheses and one more behind them
(`parseDescriptor_eq_some_iff`). So a signature of well-named types comes back from its descriptor,
a descriptor comes back from the signature that is read from it, and a signature matches no method
but its own (`descriptor_read_back`). `readers_accept` says which texts are read at all.
-/

namespace StreamTrace

namespace MethodSignature

open JavaType

variable {ts : List JavaType} {ds : List (List Char)} {t : JavaType} {d cs rest : List Char}
  {fuel : Nat}

/-! ## Reading descriptors -/

theorem readArguments_closed (fuel : Nat) (rest : List Char) :
    readArguments fuel (')' :: rest) = some ([], rest) := by
  cases fuel <;> rfl

theorem readArguments_zero (h : ∀ rest, cs ≠ ')' :: rest) : readArguments 0 cs = none :=
  readArguments.eq_2 cs fun rest => h rest

theorem readArguments_succ (h : ∀ rest, cs ≠ ')' :: rest) :
    readArguments (fuel + 1) cs =
      (ofSignature? cs).bind fun (t, rest) =>
        (readArguments fuel rest).map fun (ts, rest) => (t :: ts, rest) := by
  rw [readArguments.eq_3 _ _ fun rest => h rest]
  cases ofSignature? cs <;> rfl

theorem reads_arguments (h : List.Forall₂ Spells ts ds) (rest : List Char) :
    ∀ {fuel}, ds.length ≤ fuel →
      readArguments fuel (ds.flatten ++ ')' :: rest) = some (ts, rest) := by
  induction h with
  | nil => exact fun _ => readArguments_closed _ rest
  | @cons t d ts ds hd hds ih =>
      intro fuel hfuel
      obtain ⟨fuel, rfl⟩ : ∃ k, fuel = k + 1 := ⟨fuel - 1, by simp at hfuel; omega⟩
      have hlength : ds.length ≤ fuel := by simpa using hfuel
      have hopen : ∀ tail, (d :: ds).flatten ++ ')' :: rest ≠ ')' :: tail := by
        obtain ⟨c, left, rfl, hc⟩ := hd.head?
        intro tail heq
        exact hc (List.cons.inj heq).1
      have hread := hd.reads (ds.flatten ++ ')' :: rest)
      rw [readArguments_succ hopen, List.flatten_cons, List.append_assoc, hread]
      show (readArguments fuel _).map _ = _
      rw [ih hlength]
      rfl

theorem exists_spells_of_readArguments :
    ∀ {fuel : Nat} {cs : List Char} {ts : List JavaType} {rest : List Char},
      readArguments fuel cs = some (ts, rest) →
        ∃ ds, List.Forall₂ Spells ts ds ∧ cs = ds.flatten ++ ')' :: rest := by
  intro fuel
  induction fuel with
  | zero =>
      intro cs ts rest h
      by_cases hopen : ∀ tail, cs ≠ ')' :: tail
      · rw [readArguments_zero hopen] at h
        cases h
      · obtain ⟨tail, htail⟩ := not_forall_not.1 hopen
        rw [htail, readArguments_closed] at h
        cases h
        exact ⟨[], .nil, htail⟩
  | succ fuel ih =>
      intro cs ts rest h
      by_cases hopen : ∀ tail, cs ≠ ')' :: tail
      · rw [readArguments_succ hopen, Option.bind_eq_some_iff] at h
        obtain ⟨⟨t, left⟩, hread, harguments⟩ := h
        obtain ⟨⟨us, last⟩, hus, heq⟩ := Option.map_eq_some_iff.1 harguments
        cases heq
        obtain ⟨d, hd, rfl⟩ := ofSignature?_eq_some_iff.1 hread
        obtain ⟨ds, hds, rfl⟩ := ih hus
        exact ⟨d :: ds, .cons hd hds, by simp⟩
      · obtain ⟨tail, htail⟩ := not_forall_not.1 hopen
        rw [htail, readArguments_closed] at h
        cases h
        exact ⟨[], .nil, htail⟩

/-- No signature is empty, so there are at least as many characters as arguments. -/
theorem length_le_of_spells (h : List.Forall₂ Spells ts ds) : ds.length ≤ ds.flatten.length := by
  induction h with
  | nil => exact Nat.le_refl 0
  | @cons t d _ ds hd _ ih =>
      obtain ⟨c, tail, rfl, -⟩ := hd.head?
      simp only [List.length_cons, List.flatten_cons, List.length_append]
      omega

theorem parseDescriptor_open (cs : List Char) :
    parseDescriptor ('(' :: cs) =
      (readArguments cs.length cs).bind fun (ts, rest) =>
        match ofSignature? rest with
        | some (t, []) => some (ts, t)
        | _ => none := by
  rw [parseDescriptor.eq_1]
  cases readArguments cs.length cs <;> rfl

theorem exists_open_of_parseDescriptor (h : parseDescriptor cs = some (ts, t)) :
    ∃ tail, cs = '(' :: tail := by
  by_cases hopen : ∀ tail, cs ≠ '(' :: tail
  · rw [parseDescriptor.eq_2 cs fun tail => hopen tail] at h
    cases h
  · exact not_forall_not.1 hopen

/-- A descriptor is read exactly as signatures of the arguments and of the result. -/
theorem parseDescriptor_eq_some_iff :
    parseDescriptor cs = some (ts, t) ↔
      ∃ ds d, List.Forall₂ Spells ts ds ∧ Spells t d ∧ cs = '(' :: ds.flatten ++ ')' :: d := by
  constructor
  · intro h
    obtain ⟨tail, rfl⟩ := exists_open_of_parseDescriptor h
    rw [parseDescriptor_open, Option.bind_eq_some_iff] at h
    obtain ⟨⟨us, rest⟩, harguments, hresult⟩ := h
    obtain ⟨ds, hds, rfl⟩ := exists_spells_of_readArguments harguments
    cases hread : ofSignature? rest with
    | none => simp only [hread] at hresult; cases hresult
    | some found =>
        obtain ⟨u, left⟩ := found
        simp only [hread] at hresult
        cases left with
        | cons c left => cases hresult
        | nil =>
            cases hresult
            obtain ⟨d, hd, heq⟩ := ofSignature?_eq_some_iff.1 hread
            rw [List.append_nil] at heq
            exact ⟨ds, d, hds, hd, by rw [heq]; rfl⟩
  · rintro ⟨ds, d, hds, hd, rfl⟩
    have hlength : ds.length ≤ (ds.flatten ++ ')' :: d).length := by
      have hle := length_le_of_spells hds
      rw [List.length_append]
      omega
    have hresult := hd.reads []
    rw [List.append_nil] at hresult
    rw [List.cons_append, parseDescriptor_open, reads_arguments hds d hlength, Option.bind_some]
    simp only [hresult]

/-! ## Signatures and their descriptors -/

/-- All types of the signature are given by source names. -/
structure IsWellNamed (m : MethodSignature) : Prop where
  arguments : ∀ a ∈ m.argumentTypes, IsTypeName a.toList
  result : IsTypeName m.returnType.toList

theorem toList_descriptor (m : MethodSignature) :
    m.descriptor.toList =
      '(' :: (m.argumentTypes.map fun a => (ofName a.toList).signature).flatten ++
        ')' :: (ofName m.returnType.toList).signature := by
  rw [descriptor, String.toList_ofList, List.flatMap_def]

theorem spells_arguments {names : List String} (h : ∀ a ∈ names, IsTypeName a.toList) :
    List.Forall₂ Spells (names.map fun a => ofName a.toList)
      (names.map fun a => (ofName a.toList).signature) := by
  induction names with
  | nil => exact .nil
  | cons a names ih =>
      have ha := h a List.mem_cons_self
      exact .cons ha.spells (ih fun b hb => h b (List.mem_cons_of_mem a hb))

theorem ofList_name {n : String} (h : IsTypeName n.toList) :
    String.ofList (ofName n.toList).name = n := by
  rw [h.name_ofName, String.ofList_toList]

theorem ofDescriptor?_of_parse {descriptor : String}
    (h : parseDescriptor descriptor.toList = some (ts, t)) (containingClass name : String) :
    ofDescriptor? containingClass name descriptor =
      some { containingClass, name, argumentTypes := ts.map fun t => String.ofList t.name,
             returnType := String.ofList t.name } := by
  rw [ofDescriptor?, h]
  rfl

/-- A signature of well-named types is read back from its descriptor. -/
theorem IsWellNamed.ofDescriptor? {m : MethodSignature} (h : m.IsWellNamed) :
    ofDescriptor? m.containingClass m.name m.descriptor = some m := by
  have hparse : parseDescriptor m.descriptor.toList =
      some (m.argumentTypes.map fun a => ofName a.toList, ofName m.returnType.toList) :=
    parseDescriptor_eq_some_iff.2
      ⟨_, _, spells_arguments h.arguments, h.result.spells, m.toList_descriptor⟩
  have hnames : (m.argumentTypes.map fun a => ofName a.toList).map
      (fun t => String.ofList t.name) = m.argumentTypes := by
    rw [List.map_map]
    exact (List.map_congr_left fun a ha => ofList_name (h.arguments a ha)).trans
      (List.map_id _)
  rw [ofDescriptor?_of_parse hparse, hnames, ofList_name h.result]

theorem matches_iff {m : MethodSignature} {name descriptor : String} :
    m.Matches name descriptor = true ↔ m.name = name ∧ m.descriptor = descriptor := by
  rw [Matches, Bool.and_eq_true, beq_iff_eq, beq_iff_eq]

theorem exists_signatures_eq
    (h : ∀ d ∈ ds, FieldDescriptor (fun _ => True) IsInternalName d) :
    ∃ ts, List.Forall₂ Spells ts ds ∧
      (ts.map fun t => (ofName t.name).signature).flatten = ds.flatten := by
  induction ds with
  | nil => exact ⟨[], .nil, rfl⟩
  | cons d ds ih =>
      obtain ⟨t, ht, hd⟩ := exists_signature_eq (h d List.mem_cons_self)
      obtain ⟨ts, hts, hds⟩ := ih fun b hb => h b (List.mem_cons_of_mem d hb)
      refine ⟨t :: ts, .cons ht hts, ?_⟩
      rw [List.map_cons, List.flatten_cons, List.flatten_cons, hd, hds]

/-- A method descriptor is the descriptor of the signature that is read from it. -/
theorem exists_descriptor_eq {descriptor : String}
    (h : MethodDescriptor (FieldDescriptor (fun _ => True) IsInternalName)
      (FieldDescriptor (fun _ => True) IsInternalName) descriptor.toList)
    (containingClass name : String) :
    ∃ m, ofDescriptor? containingClass name descriptor = some m ∧
      m.descriptor = descriptor := by
  generalize htext : descriptor.toList = text at h
  obtain ⟨ds, d, harguments, hresult⟩ := h
  obtain ⟨ts, hts, hds⟩ := exists_signatures_eq harguments
  obtain ⟨t, ht, hd⟩ := exists_signature_eq hresult
  have hparse : parseDescriptor descriptor.toList = some (ts, t) :=
    parseDescriptor_eq_some_iff.2 ⟨ds, d, hts, ht, htext⟩
  refine ⟨_, ofDescriptor?_of_parse hparse _ _, String.toList_injective ?_⟩
  rw [toList_descriptor, htext]
  simp only [List.map_map, Function.comp_def, String.toList_ofList]
  rw [hds, hd]

end MethodSignature

/-- The name under which an array class is looked up is its signature with dots for slashes. -/
theorem replaceChar_lookupName {name : String} (h : endsWithBrackets name = true) :
    String.ofList (JavaType.replaceChar '.' '/' (lookupName name).toList) =
      typeNameToSignature name := by
  have hdot : '.' ∉ (typeNameToSignature name).toList := by
    rw [toList_typeNameToSignature]
    exact JavaType.notMem_signature _
  rw [lookupName, if_pos h, String.toList_ofList, JavaType.replaceChar_replaceChar hdot,
    String.ofList_toList]

open JavaType MethodSignature in
/-- Writing and reading descriptors are inverse, so a signature matches only its own method, and
the names for looking arrays up are their signatures. -/
theorem descriptor_read_back :
    (∀ m : MethodSignature, m.IsWellNamed →
      ofDescriptor? m.containingClass m.name m.descriptor = some m) ∧
    (∀ m : MethodSignature, m.IsWellNamed → ∀ name descriptor,
      m.Matches name descriptor = true → ofDescriptor? m.containingClass name descriptor = some m) ∧
    (∀ m m' : MethodSignature, m.IsWellNamed → m'.IsWellNamed →
      m.containingClass = m'.containingClass →
        (m.Matches m'.name m'.descriptor = true ↔ m = m')) ∧
    (∀ containingClass name descriptor : String,
      MethodDescriptor (FieldDescriptor (fun _ => True) IsInternalName)
        (FieldDescriptor (fun _ => True) IsInternalName) descriptor.toList →
      ∃ m, ofDescriptor? containingClass name descriptor = some m ∧
        m.descriptor = descriptor) ∧
    ∀ name : String, endsWithBrackets name = true →
      String.ofList (replaceChar '.' '/' (lookupName name).toList) = typeNameToSignature name := by
  refine ⟨fun m h => h.ofDescriptor?, ?_, ?_, fun c n d h => exists_descriptor_eq h c n,
    fun name h => replaceChar_lookupName h⟩
  · intro m h name descriptor hmatches
    obtain ⟨rfl, rfl⟩ := matches_iff.1 hmatches
    exact h.ofDescriptor?
  · intro m m' h h' hclass
    constructor
    · intro hmatches
      obtain ⟨hname, hdescriptor⟩ := matches_iff.1 hmatches
      have hread := h'.ofDescriptor?
      rw [← hclass, ← hname, ← hdescriptor, h.ofDescriptor?] at hread
      exact Option.some.inj hread
    · rintro rfl
      exact matches_iff.2 ⟨rfl, rfl⟩

/-- The method through which a class loader is handed a class file. -/
def definingMethod : MethodSignature :=
  { containingClass := "java.lang.ClassLoader", name := "defineClass",
    argumentTypes := ["java.lang.String", "byte[]", "int", "int"], returnType := "java.lang.Class" }

theorem definingMethod_wellNamed : definingMethod.IsWellNamed := by
  have hstring : JavaType.IsTypeName "java.lang.String".toList :=
    .named _ (JavaType.isClassName_of_parts ["java".toList, "lang".toList, "String".toList]
      (by decide) (by decide) (by decide))
  have hclass : JavaType.IsTypeName "java.lang.Class".toList :=
    .named _ (JavaType.isClassName_of_parts ["java".toList, "lang".toList, "Class".toList]
      (by decide) (by decide) (by decide))
  have hbytes : JavaType.IsTypeName "byte[]".toList := .array _ (.keyword .byte)
  have hint : JavaType.IsTypeName "int".toList := .keyword .int
  refine ⟨?_, hclass⟩
  intro a ha
  simp only [definingMethod, List.mem_cons, List.not_mem_nil, or_false] at ha
  rcases ha with rfl | rfl | rfl | rfl
  · exact hstring
  · exact hbytes
  · exact hint
  · exact hint

open JavaType MethodSignature in
theorem descriptor_read_back_of_definingMethod :
    definingMethod.IsWellNamed ∧
    ofDescriptor? "java.lang.ClassLoader" "defineClass"
      "(Ljava/lang/String;[BII)Ljava/lang/Class;" = some definingMethod ∧
    MethodDescriptor (FieldDescriptor (fun _ => True) IsInternalName)
      (FieldDescriptor (fun _ => True) IsInternalName) "([I)La/B;".toList ∧
    (∃ m, ofDescriptor? "a.B" "m" "([I)La/B;" = some m ∧ m.descriptor = "([I)La/B;") ∧
    endsWithBrackets "a.B[]" = true ∧
    String.ofList (replaceChar '.' '/' (lookupName "a.B[]").toList) =
      typeNameToSignature "a.B[]" := by
  have hdescriptor : MethodDescriptor (FieldDescriptor (fun _ => True) IsInternalName)
      (FieldDescriptor (fun _ => True) IsInternalName) "([I)La/B;".toList := by
    refine .mk ["[I".toList] "La/B;".toList (fun a ha => ?_) ?_
    · rw [List.mem_singleton.1 ha]
      exact .array _ (.primitive .int trivial)
    · exact .named "a/B".toList ⟨by decide, by simp, fun p => by cases p <;> decide⟩
  exact ⟨definingMethod_wellNamed,
    descriptor_read_back.1 definingMethod definingMethod_wellNamed, hdescriptor,
    descriptor_read_back.2.2.2.1 "a.B" "m" "([I)La/B;" hdescriptor, by decide,
    descriptor_read_back.2.2.2.2 "a.B[]" (by decide)⟩

/-! ## What the readers accept -/

namespace MethodSignature

open JavaType

theorem all_isSignature_iff {ds : List (List Char)} :
    (∀ d ∈ ds, IsSignature d) ↔ ∃ ts, List.Forall₂ Spells ts ds := by
  induction ds with
  | nil => exact ⟨fun _ => ⟨[], .nil⟩, fun _ d hd => nomatch hd⟩
  | cons d ds ih =>
      rw [List.forall_mem_cons, ih, isSignature_iff]
      constructor
      · rintro ⟨⟨t, ht⟩, ts, hts⟩
        exact ⟨t :: ts, .cons ht hts⟩
      · rintro ⟨_, hts⟩
        cases hts with
        | cons ht hts => exact ⟨⟨_, ht⟩, _, hts⟩

theorem exists_signature_iff {containingClass name descriptor : String} :
    (∃ m, ofDescriptor? containingClass name descriptor = some m) ↔
      MethodDescriptor IsSignature IsSignature descriptor.toList := by
  constructor
  · rintro ⟨m, h⟩
    obtain ⟨⟨ts, t⟩, hparse, -⟩ := Option.map_eq_some_iff.1 h
    obtain ⟨ds, d, hds, hd, htext⟩ := parseDescriptor_eq_some_iff.1 hparse
    rw [htext]
    exact .mk ds d (all_isSignature_iff.2 ⟨ts, hds⟩) (isSignature_iff.2 ⟨t, hd⟩)
  · intro h
    generalize htext : descriptor.toList = text at h
    obtain ⟨ds, d, harguments, hresult⟩ := h
    obtain ⟨ts, hts⟩ := all_isSignature_iff.1 harguments
    obtain ⟨t, ht⟩ := isSignature_iff.1 hresult
    exact ⟨_, ofDescriptor?_of_parse
      (parseDescriptor_eq_some_iff.2 ⟨ds, d, hts, ht, htext⟩) containingClass name⟩

end MethodSignature

open JavaType MethodSignature in
/-- The readers accept every descriptor of the virtual machine, and besides these exactly the texts
in which `void` stands where a value is meant or a class has no name. A text that is cut inside a
character is none of them. -/
theorem readers_accept (containingClass name s : String) :
    ((∃ n, signatureToTypeName? s = some n) ↔ IsSignature s.toList) ∧
    ((∃ m, ofDescriptor? containingClass name s = some m) ↔
      MethodDescriptor IsSignature IsSignature s.toList) ∧
    (IsReturn s.toList → IsSignature s.toList) ∧
    (MethodDescriptor IsField IsReturn s.toList →
      MethodDescriptor IsSignature IsSignature s.toList) ∧
    (Splits s.toList → ¬IsSignature s.toList) := by
  refine ⟨exists_typeName_iff, exists_signature_iff, IsReturn.isSignature, ?_,
    Splits.not_isSignature⟩
  generalize s.toList = text
  rintro ⟨ds, d, harguments, hresult⟩
  exact .mk ds d (fun a ha => IsReturn.isSignature (Or.inr (harguments a ha)))
    hresult.isSignature

open JavaType MethodSignature in
/-- `void` is read as the type of an argument, and reading some texts cuts a character. -/
theorem void_argument_accepted :
    (∃ m, ofDescriptor? "a.B" "m" "(V)V" = some m) ∧
      ¬MethodDescriptor IsField IsReturn "(V)V".toList ∧ Splits "é".toList := by
  refine ⟨⟨_, rfl⟩, fun h => ?_, .opening 'é' [] rfl⟩
  generalize htext : "(V)V".toList = text at h
  obtain ⟨ds, d, harguments, -⟩ := h
  cases ds with
  | nil => exact absurd htext (by simp)
  | cons a ds =>
      have ha := harguments a List.mem_cons_self
      cases ha with
      | primitive p hp =>
          cases p <;> simp [PrimitiveType.letter] at htext hp
      | named n _ => simp at htext
      | array d _ => simp at htext

end StreamTrace
