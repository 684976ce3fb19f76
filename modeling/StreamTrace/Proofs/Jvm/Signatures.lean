import Mathlib.Data.List.TakeWhile
import StreamTrace.Proofs.Jvm.ArrayNames
import StreamTrace.Text.Cut

/-!
# Signatures of types

Reading a signature inverts writing it. `Spells t d` says that the text `d` is a signature of the
type `t`; `ofSignature?_eq_some_iff` says that the reader takes exactly such texts off the front of
what it is given. The source names from which signatures are written are described by `IsTypeName`,
and the texts that are read by the grammar `FieldDescriptor`, which is told what primitive types
and class names may occur.

The reader takes more than field descriptors: `void` counts as a type wherever a type may stand,
and a class may have an empty name. It also cuts the text behind the first byte of every type,
which is no place if the type begins with a longer character.
-/

namespace StreamTrace

namespace PrimitiveType

theorem mem_all (p : PrimitiveType) : p ∈ all := by cases p <;> decide

theorem ofKeyword?_keyword (p : PrimitiveType) : ofKeyword? p.keyword = some p := by
  cases p <;> decide

theorem letter_of_ofLetter? {c : Char} {p : PrimitiveType} (h : ofLetter? c = some p) :
    p.letter = c := by
  simpa using List.find?_some h

theorem ofKeyword?_eq_none {name : String} (h : ∀ p : PrimitiveType, p.keyword ≠ name) :
    ofKeyword? name = none := by
  rw [ofKeyword?, List.find?_eq_none]
  intro p _
  simpa using h p

theorem letter_ne_close (p : PrimitiveType) : p.letter ≠ ')' := by
  cases p <;> decide

/-- The characters of a keyword are lower-case letters. -/
theorem isLower_of_mem_keyword {p : PrimitiveType} {c : Char} (h : c ∈ p.keyword.toList) :
    c.isLower = true := by
  have hall : p.keyword.toList.all Char.isLower = true := by cases p <;> rfl
  exact List.all_eq_true.1 hall c h

theorem notMem_keyword {p : PrimitiveType} {c : Char} (h : c.isLower = false) :
    c ∉ p.keyword.toList := by
  intro hmem
  rw [isLower_of_mem_keyword hmem] at h
  exact Bool.noConfusion h

end PrimitiveType

namespace JavaType

variable {t : JavaType} {ts : List JavaType} {d cs rest : List Char} {ds : List (List Char)}

theorem notMem_replaceChar {old new : Char} (hne : old ≠ new) (cs : List Char) :
    old ∉ replaceChar old new cs := by
  intro hmem
  obtain ⟨c, -, hc⟩ := List.mem_map.1 hmem
  by_cases heq : c = old
  · rw [if_pos heq] at hc
    exact hne hc.symm
  · rw [if_neg heq] at hc
    exact heq hc

theorem mem_of_mem_replaceChar {old new c : Char} {cs : List Char}
    (h : c ∈ replaceChar old new cs) (hne : c ≠ new) : c ∈ cs := by
  obtain ⟨b, hb, hc⟩ := List.mem_map.1 h
  by_cases heq : b = old
  · rw [if_pos heq] at hc
    exact absurd hc.symm hne
  · rw [if_neg heq] at hc
    exact hc ▸ hb

/-! ## Signatures -/

/-- The text is a signature of the type: one letter, a class name between `L` and `;` with slashes
for its dots, or `[` in front of a signature of the component. -/
inductive Spells : JavaType → List Char → Prop
  | primitive (p : PrimitiveType) : Spells (.primitive p) [p.letter]
  | named (n : List Char) (closed : ';' ∉ n) :
      Spells (.named (replaceChar '/' '.' n)) ('L' :: n ++ [';'])
  | array {t : JavaType} {d : List Char} (component : Spells t d) : Spells (.array t) ('[' :: d)

theorem ofSignature?_letter (p : PrimitiveType) (rest : List Char) :
    ofSignature? (p.letter :: rest) = some (.primitive p, rest) := by
  cases p <;> rfl

/-- A class name ends at the first semicolon. -/
theorem span_closed {n : List Char} (h : ';' ∉ n) (rest : List Char) :
    (n ++ ';' :: rest).takeWhile (· ≠ ';') = n ∧
      (n ++ ';' :: rest).dropWhile (· ≠ ';') = ';' :: rest := by
  have hall : ∀ c ∈ n, decide (c ≠ ';') = true := by
    intro c hc
    exact decide_eq_true fun heq => h (heq ▸ hc)
  constructor
  · rw [List.takeWhile_append_of_pos hall]
    exact List.append_nil n
  · rw [List.dropWhile_append_of_pos hall]
    rfl

theorem ofSignature?_named (cs : List Char) :
    ofSignature? ('L' :: cs) =
      match cs.dropWhile (· ≠ ';') with
      | _ :: rest => some (.named (replaceChar '/' '.' (cs.takeWhile (· ≠ ';'))), rest)
      | [] => none := rfl

theorem ofSignature?_array (cs : List Char) :
    ofSignature? ('[' :: cs) = (ofSignature? cs).map fun (t, rest) => (.array t, rest) := rfl

/-- A signature is read up to its end, whatever comes behind it. -/
theorem Spells.reads (h : Spells t d) (rest : List Char) :
    ofSignature? (d ++ rest) = some (t, rest) := by
  induction h with
  | primitive p => exact ofSignature?_letter p rest
  | named n closed =>
      have happend : 'L' :: n ++ [';'] ++ rest = 'L' :: (n ++ ';' :: rest) := by simp
      rw [happend, ofSignature?_named, (span_closed closed rest).1, (span_closed closed rest).2]
  | array _ ih => rw [List.cons_append, ofSignature?_array, ih]; rfl

theorem exists_closed_of_dropWhile {cs tail : List Char} {c : Char}
    (h : cs.dropWhile (· ≠ ';') = c :: tail) :
    ';' ∉ cs.takeWhile (· ≠ ';') ∧ cs = cs.takeWhile (· ≠ ';') ++ ';' :: tail := by
  have hc : c = ';' := by
    have hhead := List.head?_dropWhile_not (p := (· ≠ ';')) (l := cs)
    rw [h] at hhead
    simpa using hhead
  refine ⟨fun hmem => ?_, ?_⟩
  · simpa using List.mem_takeWhile_imp hmem
  · have happend := List.takeWhile_append_dropWhile (p := (· ≠ ';')) (l := cs)
    rw [h, hc] at happend
    exact happend.symm

/-- What is read is a signature of the type. -/
theorem exists_spells_of_ofSignature? :
    ∀ {cs : List Char} {t : JavaType} {rest : List Char}, ofSignature? cs = some (t, rest) →
      ∃ d, Spells t d ∧ cs = d ++ rest := by
  intro cs
  induction cs using ofSignature?.induct with
  | case1 => intro t rest h; cases h
  | case2 cs c tail hdrop =>
      intro t rest h
      rw [ofSignature?_named, hdrop] at h
      cases h
      obtain ⟨closed, hcs⟩ := exists_closed_of_dropWhile hdrop
      have happend (n : List Char) : 'L' :: (n ++ ';' :: tail) = 'L' :: n ++ [';'] ++ tail := by
        simp
      exact ⟨_, .named _ closed, (congrArg ('L' :: ·) hcs).trans (happend _)⟩
  | case3 cs hdrop =>
      intro t rest h
      rw [ofSignature?_named, hdrop] at h
      cases h
  | case4 cs ih =>
      intro t rest h
      rw [ofSignature?_array, Option.map_eq_some_iff] at h
      obtain ⟨⟨component, left⟩, hread, heq⟩ := h
      cases heq
      obtain ⟨d, hd, rfl⟩ := ih hread
      exact ⟨'[' :: d, .array hd, rfl⟩
  | case5 c cs hL hA =>
      intro t rest h
      rw [ofSignature?.eq_4 _ _ hL hA, Option.map_eq_some_iff] at h
      obtain ⟨p, hp, heq⟩ := h
      cases heq
      refine ⟨[p.letter], .primitive p, ?_⟩
      rw [PrimitiveType.letter_of_ofLetter? hp]
      rfl

theorem ofSignature?_eq_some_iff :
    ofSignature? cs = some (t, rest) ↔ ∃ d, Spells t d ∧ cs = d ++ rest := by
  constructor
  · exact exists_spells_of_ofSignature?
  · rintro ⟨d, hd, rfl⟩
    exact hd.reads rest

/-- Signatures begin with neither a closing parenthesis nor nothing. -/
theorem Spells.head? (h : Spells t d) : ∃ c tail, d = c :: tail ∧ c ≠ ')' := by
  cases h with
  | primitive p => exact ⟨_, _, rfl, p.letter_ne_close⟩
  | named n _ => exact ⟨'L', n ++ [';'], rfl, by decide⟩
  | array component => exact ⟨'[', _, rfl, by decide⟩

/-! ## Source names -/

/-- A name without the characters that class files keep for other uses. -/
def IsIdentifier (cs : List Char) : Prop := cs ≠ [] ∧ ∀ c ∈ cs, c ∉ ['.', ';', '[', '/']

-- The characters of the name are looked at, not all characters there are.
instance (cs : List Char) : Decidable (IsIdentifier cs) :=
  @instDecidableAnd _ _ inferInstance (List.decidableBAll _ cs)

/-- Identifiers joined by dots, but no keyword. -/
structure IsClassName (n : List Char) : Prop where
  joined : ∃ parts, (∀ p ∈ parts, IsIdentifier p) ∧ parts ≠ [] ∧ n = ['.'].intercalate parts
  isClass : ∀ p : PrimitiveType, p.keyword.toList ≠ n

/-- The source names of types: keywords, class names, and names with brackets. -/
inductive IsTypeName : List Char → Prop
  | keyword (p : PrimitiveType) : IsTypeName p.keyword.toList
  | named (n : List Char) (h : IsClassName n) : IsTypeName n
  | array (n : List Char) (h : IsTypeName n) : IsTypeName (n ++ ['[', ']'])

theorem mem_of_mem_intercalate {α : Type} {a : α} {sep : List α} :
    ∀ {parts : List (List α)}, a ∈ sep.intercalate parts → a ∈ sep ∨ ∃ p ∈ parts, a ∈ p
  | [], h => by simp [List.intercalate] at h
  | [p], h => Or.inr ⟨p, List.mem_singleton_self p, by simpa [List.intercalate] using h⟩
  | p :: q :: rest, h => by
      have hcons : sep.intercalate (p :: q :: rest) =
          p ++ (sep ++ sep.intercalate (q :: rest)) := by simp [List.intercalate]
      rw [hcons, List.mem_append, List.mem_append] at h
      rcases h with hp | hsep | hrest
      · exact Or.inr ⟨p, List.mem_cons_self, hp⟩
      · exact Or.inl hsep
      · rcases mem_of_mem_intercalate hrest with hsep | ⟨r, hr, ha⟩
        · exact Or.inl hsep
        · exact Or.inr ⟨r, List.mem_cons_of_mem p hr, ha⟩

theorem isClassName_of_parts (parts : List (List Char)) (h : ∀ p ∈ parts, IsIdentifier p)
    (hparts : parts ≠ []) (hclass : ∀ p ∈ PrimitiveType.all,
      p.keyword.toList ≠ ['.'].intercalate parts) : IsClassName (['.'].intercalate parts) :=
  ⟨⟨parts, h, hparts, rfl⟩, fun p => hclass p p.mem_all⟩

theorem IsClassName.notMem {n : List Char} (h : IsClassName n) {c : Char} (hdot : c ≠ '.')
    (hc : c ∈ ['.', ';', '[', '/']) : c ∉ n := by
  obtain ⟨⟨parts, hparts, -, rfl⟩, -⟩ := h
  intro hmem
  rcases mem_of_mem_intercalate hmem with hsep | ⟨p, hp, hcp⟩
  · exact hdot (List.mem_singleton.1 hsep)
  · exact (hparts p hp).2 c hcp hc

/-- A name without an opening bracket is a keyword or names a class. -/
theorem ofName_of_notMem {n : List Char} (h : '[' ∉ n) :
    ofName n = (PrimitiveType.ofKeyword? (String.ofList n)).elim (.named n) .primitive := by
  have hreversed : ∀ rest, n.reverse = ']' :: '[' :: rest → False := by
    intro rest heq
    refine h (List.mem_reverse.1 ?_)
    rw [heq]
    exact List.mem_cons_of_mem _ List.mem_cons_self
  rw [ofName, ofReversedName.eq_2 _ hreversed, List.reverse_reverse]
  cases PrimitiveType.ofKeyword? (String.ofList n) <;> rfl

theorem ofName_keyword (p : PrimitiveType) : ofName p.keyword.toList = .primitive p := by
  rw [ofName_of_notMem (PrimitiveType.notMem_keyword (by decide)), String.ofList_toList,
    PrimitiveType.ofKeyword?_keyword]
  rfl

/-- What is neither an array nor a keyword names a class. -/
theorem ofName_named {n : List Char} (h : '[' ∉ n)
    (hclass : ∀ p : PrimitiveType, p.keyword.toList ≠ n) : ofName n = .named n := by
  have hnone : PrimitiveType.ofKeyword? (String.ofList n) = none := by
    refine PrimitiveType.ofKeyword?_eq_none fun p heq => hclass p ?_
    rw [heq, String.toList_ofList]
  rw [ofName_of_notMem h, hnone]
  rfl

theorem IsClassName.ofName {n : List Char} (h : IsClassName n) :
    JavaType.ofName n = .named n :=
  ofName_named (h.notMem (by decide) (by decide)) h.isClass

/-- The name of a type comes back from the type. -/
theorem IsTypeName.name_ofName {n : List Char} (h : IsTypeName n) : (ofName n).name = n := by
  induction h with
  | keyword p => rw [ofName_keyword]; rfl
  | named n h => rw [h.ofName]; rfl
  | array n _ ih =>
      rw [ofName_brackets]
      show (ofName n).name ++ ['[', ']'] = _
      rw [ih]

theorem IsTypeName.spells {n : List Char} (h : IsTypeName n) :
    Spells (ofName n) (ofName n).signature := by
  induction h with
  | keyword p => rw [ofName_keyword]; exact .primitive p
  | named n h =>
      have hslash : '/' ∉ n := h.notMem (by decide) (by decide)
      have hclosed : ';' ∉ replaceChar '.' '/' n := fun hmem =>
        h.notMem (by decide) (by decide) (mem_of_mem_replaceChar hmem (by decide))
      have hspells := Spells.named _ hclosed
      rw [replaceChar_replaceChar hslash] at hspells
      rw [h.ofName]
      exact hspells
  | array n _ ih => rw [ofName_brackets]; exact .array ih

/-- There is no dot in a signature that was written for a type. -/
theorem notMem_signature (t : JavaType) : '.' ∉ t.signature := by
  induction t with
  | primitive p => cases p <;> decide
  | named n =>
      intro hmem
      rcases List.mem_cons.1 hmem with heq | hmem
      · exact absurd heq (by decide)
      · rcases List.mem_append.1 hmem with hname | hend
        · exact notMem_replaceChar (by decide) n hname
        · exact absurd (List.mem_singleton.1 hend) (by decide)
  | array t ih =>
      intro hmem
      rcases List.mem_cons.1 hmem with heq | hmem
      · exact absurd heq (by decide)
      · exact ih hmem

/-- A type is told by its name, its signature and the name under which its arrays are looked up. -/
theorem IsTypeName.isComponent {name : String} (h : IsTypeName name.toList) : IsComponent name where
  dotless := notMem_signature _
  reads := by simpa using h.spells.reads []
  spelled := h.name_ofName

/-- A name that must be a class's: it has a character that no keyword has, and none that class files
keep for other uses. -/
def IsPlainName (n : List Char) : Prop :=
  (∀ c ∈ n, c ∉ ['[', ';', '/']) ∧ ∃ c ∈ n, c.isLower = false

instance (n : List Char) : Decidable (IsPlainName n) :=
  @instDecidableAnd _ _ (List.decidableBAll _ n) (List.decidableBEx _ n)

theorem IsPlainName.ofName {n : List Char} (h : IsPlainName n) : JavaType.ofName n = .named n := by
  obtain ⟨hplain, c, hc, hlower⟩ := h
  refine ofName_named (fun hmem => hplain _ hmem (by decide)) fun p hkeyword => ?_
  exact p.notMem_keyword hlower (hkeyword ▸ hc)

theorem IsPlainName.isComponent {name : String} (h : IsPlainName name.toList) :
    IsComponent name where
  dotless := notMem_signature _
  reads := by
    have hslash : '/' ∉ name.toList := fun hmem => h.1 _ hmem (by decide)
    have hclosed : ';' ∉ replaceChar '.' '/' name.toList := fun hmem =>
      h.1 _ (mem_of_mem_replaceChar hmem (by decide)) (by decide)
    have hreads := (Spells.named _ hclosed).reads []
    rw [replaceChar_replaceChar hslash, List.append_nil] at hreads
    rw [h.ofName]
    exact hreads
  spelled := by
    rw [h.ofName]
    rfl

/-- A type is looked up by its own name, or it is one of arrays. -/
theorem IsTypeName.lookup_cases {name : String} (h : IsTypeName name.toList) :
    ('[' ∉ name.toList ∧ lookupName name = name) ∨
      ∃ component : String, IsTypeName component.toList ∧ name = s!"{component}[]" := by
  have hplain : '[' ∉ name.toList → lookupName name = name := by
    intro hmem
    have hends : endsWithBrackets name = false := by
      unfold endsWithBrackets
      split
      · rename_i hreversed
        refine absurd (List.mem_reverse.mp ?_) hmem
        rw [hreversed]
        exact List.mem_cons_of_mem _ List.mem_cons_self
      · rfl
    unfold lookupName
    rw [hends]
    rfl
  generalize hn : name.toList = n at h hplain
  cases h with
  | keyword p =>
      have hmem := p.notMem_keyword (c := '[') (by decide)
      exact .inl ⟨hmem, hplain hmem⟩
  | named n h =>
      have hmem : '[' ∉ n := h.notMem (by decide) (by decide)
      exact .inl ⟨hmem, hplain hmem⟩
  | array n h =>
      refine .inr ⟨String.ofList n, by rwa [String.toList_ofList], String.toList_injective ?_⟩
      rw [hn, toList_brackets, String.toList_ofList]

/-! ## The grammar of descriptors -/

/-- Field descriptors in which only these primitive types and class names occur. -/
inductive FieldDescriptor (primitives : PrimitiveType → Prop) (names : List Char → Prop) :
    List Char → Prop
  | primitive (p : PrimitiveType) (h : primitives p) :
      FieldDescriptor primitives names [p.letter]
  | named (n : List Char) (h : names n) : FieldDescriptor primitives names ('L' :: n ++ [';'])
  | array (d : List Char) (h : FieldDescriptor primitives names d) :
      FieldDescriptor primitives names ('[' :: d)

/-- Method descriptors: the arguments in parentheses, and then the result. -/
inductive MethodDescriptor (argument result : List Char → Prop) : List Char → Prop
  | mk (ds : List (List Char)) (d : List Char) (arguments : ∀ a ∈ ds, argument a)
      (returns : result d) : MethodDescriptor argument result ('(' :: ds.flatten ++ ')' :: d)

/-- The field descriptors of the virtual machine: `void` is none, and no class name is empty. -/
def IsField : List Char → Prop := FieldDescriptor (· ≠ .void) fun n => n ≠ [] ∧ ';' ∉ n

/-- Field descriptors, and the letter of `void`. -/
def IsReturn (d : List Char) : Prop := d = ['V'] ∨ IsField d

/-- What the readers take for a type: `void` like any other, and a class without a name. -/
def IsSignature : List Char → Prop := FieldDescriptor (fun _ => True) fun n => ';' ∉ n

theorem FieldDescriptor.mono {primitives primitives' : PrimitiveType → Prop}
    {names names' : List Char → Prop} (hp : ∀ p, primitives p → primitives' p)
    (hn : ∀ n, names n → names' n) (h : FieldDescriptor primitives names d) :
    FieldDescriptor primitives' names' d := by
  induction h with
  | primitive p h => exact .primitive p (hp p h)
  | named n h => exact .named n (hn n h)
  | array d _ ih => exact .array d ih

theorem isSignature_iff : IsSignature d ↔ ∃ t, Spells t d := by
  constructor
  · intro h
    induction h with
    | primitive p _ => exact ⟨_, .primitive p⟩
    | named n h => exact ⟨_, .named n h⟩
    | array d _ ih =>
        obtain ⟨t, ht⟩ := ih
        exact ⟨_, .array ht⟩
  · rintro ⟨t, ht⟩
    induction ht with
    | primitive p => exact .primitive p trivial
    | named n closed => exact .named n closed
    | array _ ih => exact .array _ ih

theorem IsReturn.isSignature (h : IsReturn d) : IsSignature d := by
  rcases h with rfl | h
  · exact .primitive .void trivial
  · exact h.mono (fun _ _ => trivial) fun _ hn => hn.2

/-- Class names as class files have them, none of which is a keyword. -/
structure IsInternalName (n : List Char) : Prop where
  nonempty : n ≠ []
  plain : ∀ c ∈ n, c ∉ ['.', ';', '[']
  isClass : ∀ p : PrimitiveType, p.keyword.toList ≠ n

theorem IsInternalName.notMem {n : List Char} (h : IsInternalName n) {c : Char}
    (hc : c ∈ ['.', ';', '[']) : c ∉ n := fun hmem => h.plain c hmem hc

/-- The source name of such a class is no keyword either. -/
theorem IsInternalName.ofName_dotted {n : List Char} (h : IsInternalName n) :
    ofName (replaceChar '/' '.' n) = .named (replaceChar '/' '.' n) := by
  refine ofName_named (fun hmem => ?_) fun p heq => ?_
  · exact h.notMem (by decide) (mem_of_mem_replaceChar hmem (by decide))
  · have hslash : '/' ∉ n := by
      intro hmem
      have hdot : '.' ∈ replaceChar '/' '.' n := List.mem_map.2 ⟨'/', hmem, if_pos rfl⟩
      rw [← heq] at hdot
      exact PrimitiveType.notMem_keyword (by decide) hdot
    rw [replaceChar_of_notMem hslash] at heq
    exact h.isClass p heq

/-- A field descriptor comes back from the source name of its type. -/
theorem exists_signature_eq (h : FieldDescriptor (fun _ => True) IsInternalName d) :
    ∃ t, Spells t d ∧ (ofName t.name).signature = d := by
  induction h with
  | primitive p _ =>
      refine ⟨_, .primitive p, ?_⟩
      show (ofName p.keyword.toList).signature = _
      rw [ofName_keyword]
      rfl
  | named n h =>
      refine ⟨_, .named n (h.notMem (by decide)), ?_⟩
      show (ofName (replaceChar '/' '.' n)).signature = _
      rw [h.ofName_dotted]
      show 'L' :: replaceChar '.' '/' (replaceChar '/' '.' n) ++ [';'] = _
      rw [replaceChar_replaceChar (h.notMem (by decide))]
  | array d _ ih =>
      obtain ⟨t, ht, hd⟩ := ih
      refine ⟨_, .array ht, ?_⟩
      show (ofName (t.name ++ ['[', ']'])).signature = _
      rw [ofName_brackets]
      exact congrArg ('[' :: ·) hd

/-! ## Cuts inside a character -/

/-- Reading a type cuts the text behind the first byte of the character that opens it, and of the
one that opens the component of an array. One of these places lies inside a character, so reading
the text ends in a fault. -/
inductive Splits : List Char → Prop
  | opening (c : Char) (cs : List Char) (inside : Cut.dropBytes? (c :: cs) 1 = none) :
      Splits (c :: cs)
  | component (cs : List Char) (h : Splits cs) : Splits ('[' :: cs)

theorem dropBytes?_one {c : Char} {cs : List Char} :
    Cut.dropBytes? (c :: cs) 1 = none ↔ 1 < c.utf8Size := by
  rw [Cut.dropBytes?]
  by_cases hc : c.utf8Size ≤ 0 + 1
  · have hzero : 0 + 1 - c.utf8Size = 0 := by
      have hpos := c.utf8Size_pos
      omega
    rw [if_pos hc, hzero, Cut.dropBytes?]
    constructor
    · exact fun h => nomatch h
    · omega
  · rw [if_neg hc]
    exact ⟨fun _ => by omega, fun _ => rfl⟩

/-- Such a text is no signature. -/
theorem Splits.not_isSignature {cs : List Char} (h : Splits cs) : ¬IsSignature cs := by
  induction h with
  | opening c cs inside =>
      rw [dropBytes?_one] at inside
      intro hsignature
      cases hsignature with
      | primitive p _ => cases p <;> exact absurd inside (by decide)
      | named n _ => exact absurd inside (by decide)
      | array d _ => exact absurd inside (by decide)
  | component cs _ ih =>
      intro hsignature
      generalize htext : '[' :: cs = text at hsignature
      cases hsignature with
      | primitive p _ => cases p <;> exact absurd (List.cons.inj htext).1 (by decide)
      | named n _ => exact absurd (List.cons.inj htext).1 (by decide)
      | array d hd =>
          obtain rfl := (List.cons.inj htext).2
          exact ih hd

/-! ## What is read as a type -/

theorem exists_typeName_iff {s : String} :
    (∃ n, signatureToTypeName? s = some n) ↔ IsSignature s.toList := by
  rw [isSignature_iff]
  constructor
  · rintro ⟨n, h⟩
    unfold signatureToTypeName? at h
    cases hread : ofSignature? s.toList with
    | none => rw [hread] at h; cases h
    | some found =>
        obtain ⟨t, rest⟩ := found
        rw [hread] at h
        cases rest with
        | cons c rest => cases h
        | nil =>
            obtain ⟨d, hd, htext⟩ := ofSignature?_eq_some_iff.1 hread
            rw [List.append_nil] at htext
            exact ⟨t, htext ▸ hd⟩
  · rintro ⟨t, ht⟩
    have hread := ht.reads []
    rw [List.append_nil] at hread
    exact ⟨String.ofList t.name, by rw [signatureToTypeName?, hread]⟩

end JavaType

end StreamTrace
