import Mathlib.Data.List.Chain
import StreamTrace.Proofs.Jvm.Descriptors

/-!
# Argument slots

Where the arguments of an instance method lie in its frame is worked out twice: by the debugger from
the names of their types, and by the virtual machine from the descriptor, of which it looks at the
first character of each parameter. For types that are well named both come to the same slots, which
follow one another from slot 1 on.
-/

namespace StreamTrace

open JavaType

/-! ## First characters -/

/-- No letter opens or closes anything. -/
theorem PrimitiveType.letter_plain (p : PrimitiveType) :
    p.letter ≠ ')' ∧ p.letter ≠ '[' ∧ p.letter ≠ 'L' := by
  cases p <;> decide

/-- Inside a class name nothing is looked at but its end. -/
theorem parameterTagsFrom_className {n : List Char} (closed : ';' ∉ n) (rest : List Char) :
    parameterTagsFrom .className (n ++ ';' :: rest) = parameterTagsFrom .start rest := by
  induction n with
  | nil => exact if_pos rfl
  | cons c n ih =>
      have hc : c ≠ ';' := fun heq => closed (heq ▸ List.mem_cons_self)
      have hn := ih fun hmem => closed (List.mem_cons_of_mem c hmem)
      exact (if_neg hc).trans hn

/-- Behind the bracket of an array a whole signature is passed over. -/
theorem JavaType.Spells.parameterTagsFrom_array {t : JavaType} {d : List Char} (h : Spells t d)
    (rest : List Char) :
    parameterTagsFrom .array (d ++ rest) = parameterTagsFrom .start rest := by
  induction h with
  | primitive p =>
      obtain ⟨-, hbracket, hclass⟩ := p.letter_plain
      exact (if_neg hbracket).trans (if_neg hclass)
  | named n closed =>
      rw [List.cons_append, List.cons_append, List.append_assoc]
      exact parameterTagsFrom_className closed rest
  | array _ ih => exact ih

/-- Of a signature the first character is taken, and the rest is passed over. -/
theorem JavaType.Spells.parameterTagsFrom {t : JavaType} {c : Char} {tail : List Char}
    (h : Spells t (c :: tail)) (rest : List Char) :
    StreamTrace.parameterTagsFrom .start (c :: tail ++ rest) =
      c :: StreamTrace.parameterTagsFrom .start rest := by
  cases h with
  | primitive p =>
      obtain ⟨hclose, hbracket, hclass⟩ := p.letter_plain
      exact (if_neg hclose).trans ((if_neg hbracket).trans (if_neg hclass))
  | named n closed =>
      have happend : n ++ [';'] ++ rest = n ++ ';' :: rest := List.append_assoc n [';'] rest
      refine congrArg ('L' :: ·) ?_
      show StreamTrace.parameterTagsFrom .className (n ++ [';'] ++ rest) = _
      rw [happend, parameterTagsFrom_className closed]
  | array component => exact congrArg ('[' :: ·) (component.parameterTagsFrom_array rest)

namespace MethodSignature

/-! ## Widths -/

theorem slotWidth_ofList (d : List Char) :
    slotWidth (String.ofList d) = if d = ['J'] ∨ d = ['D'] then 2 else 1 := by
  have hletter : ∀ c : Char, String.ofList d = String.ofList [c] ↔ d = [c] := by
    intro c
    constructor
    · intro heq
      rw [← String.toList_ofList (l := d), heq, String.toList_ofList]
    · exact congrArg String.ofList
  have hJ := hletter 'J'
  have hD := hletter 'D'
  have hwide : (String.ofList d == "J" || String.ofList d == "D") = true ↔
      d = ['J'] ∨ d = ['D'] := by
    rw [Bool.or_eq_true, beq_iff_eq, beq_iff_eq]
    exact or_congr hJ hD
  exact if_congr hwide rfl rfl

/-- The width of a type is told by the first character of its signature. -/
theorem slotWidth_of_spells {t : JavaType} {c : Char} {tail : List Char}
    (h : Spells t (c :: tail)) :
    slotWidth (String.ofList (c :: tail)) = if c = 'J' ∨ c = 'D' then 2 else 1 := by
  rw [slotWidth_ofList]
  cases h with
  | primitive p => cases p <;> rfl
  | named n _ => exact (if_neg (by simp)).trans (if_neg (by decide)).symm
  | array component => exact (if_neg (by simp)).trans (if_neg (by decide)).symm

/-- `long` and `double` are the wide types. -/
theorem slotWidth_typeName {a : String} (h : IsTypeName a.toList) :
    slotWidth (typeNameToSignature a) = if a = "long" ∨ a = "double" then 2 else 1 := by
  have hname := h.name_ofName
  have hspelled : ∀ p : PrimitiveType, ofName a.toList = .primitive p ↔ a = p.keyword := by
    intro p
    constructor
    · intro htype
      rw [htype] at hname
      exact String.toList_injective hname.symm
    · rintro rfl
      exact ofName_keyword p
  have hletter : ∀ p : PrimitiveType, (ofName a.toList).signature = [p.letter] ↔
      ofName a.toList = .primitive p := by
    intro p
    cases ofName a.toList with
    | primitive q => cases p <;> cases q <;> simp [signature, PrimitiveType.letter]
    | named n => simp [signature]
    | array t => cases t <;> simp [signature]
  unfold typeNameToSignature
  rw [slotWidth_ofList]
  have hJ := (hletter .long).trans (hspelled .long)
  have hD := (hletter .double).trans (hspelled .double)
  exact if_congr (or_congr hJ hD) rfl rfl

/-! ## Slots -/

/-- Both ways of counting give the same slots, from wherever they start. -/
theorem map_fst_slotsFrom {names : List String} (h : ∀ a ∈ names, IsTypeName a.toList)
    (slot : Nat) (rest : List Char) :
    (slotsFrom slot (names.map typeNameToSignature)).map (·.1) =
      frameSlotsFrom slot (parameterTagsFrom .start
        ((names.map fun a => (ofName a.toList).signature).flatten ++ ')' :: rest)) := by
  induction names generalizing slot with
  | nil => rfl
  | cons a names ih =>
      have ha := (h a List.mem_cons_self).spells
      have hnames := ih fun b hb => h b (List.mem_cons_of_mem a hb)
      obtain ⟨c, tail, hsignature, -⟩ := ha.head?
      rw [hsignature] at ha
      rw [List.map_cons, List.map_cons, List.flatten_cons, List.append_assoc, hsignature,
        ha.parameterTagsFrom]
      show slot :: _ = slot :: _
      rw [typeNameToSignature, hsignature, slotWidth_of_spells ha, hnames]

theorem map_snd_slotsFrom (slot : Nat) (signatures : List String) :
    (slotsFrom slot signatures).map (·.2) = signatures := by
  induction signatures generalizing slot with
  | nil => rfl
  | cons s rest ih => exact congrArg (s :: ·) (ih _)

theorem slotsFrom_head? (slot : Nat) (signatures : List String) :
    ∀ s ∈ (slotsFrom slot signatures).head?, s.1 = slot := by
  cases signatures with
  | nil => simp [slotsFrom]
  | cons s rest => simp [slotsFrom]

theorem le_of_mem_slotsFrom {slot : Nat} {signatures : List String} {s : Nat × String}
    (h : s ∈ slotsFrom slot signatures) : slot ≤ s.1 := by
  induction signatures generalizing slot with
  | nil => cases h
  | cons signature rest ih =>
      rcases List.mem_cons.mp h with rfl | h
      · exact Nat.le_refl _
      · exact Nat.le_trans (Nat.le_add_right _ _) (ih h)

theorem slotsFrom_isChain (slot : Nat) (signatures : List String) :
    (slotsFrom slot signatures).IsChain fun s s' => s.1 + slotWidth s.2 = s'.1 := by
  induction signatures generalizing slot with
  | nil => exact .nil
  | cons s rest ih =>
      refine List.isChain_cons.mpr ⟨fun s' hs' => ?_, ih _⟩
      exact (slotsFrom_head? _ _ s' hs').symm

theorem slotsFrom_pairwise (slot : Nat) (signatures : List String) :
    (slotsFrom slot signatures).Pairwise fun s s' => s.1 + slotWidth s.2 ≤ s'.1 := by
  induction signatures generalizing slot with
  | nil => exact .nil
  | cons s rest ih => exact .cons (fun s' hs' => le_of_mem_slotsFrom hs') (ih _)

/-- The ranges of slots that the arguments of an instance method take: where each begins, and how
many slots it has. -/
def argumentRanges (m : MethodSignature) : List (Nat × Nat) :=
  (m.argumentSlots false).map fun s => (s.1, slotWidth s.2)

/-- The arguments lie one behind another from slot 1 on, where the virtual machine has them. -/
structure SlotsAgree (m : MethodSignature) : Prop where
  slots : (m.argumentSlots false).map (·.1) = frameSlots m.descriptor
  signatures : (m.argumentSlots false).map (·.2) = m.argumentTypes.map typeNameToSignature
  widths : m.argumentRanges.map (·.2) =
    m.argumentTypes.map fun a => if a = "long" ∨ a = "double" then 2 else 1
  first : ∀ r ∈ m.argumentRanges.head?, r.1 = 1
  adjacent : m.argumentRanges.IsChain fun r r' => r.1 + r.2 = r'.1
  apart : m.argumentRanges.Pairwise fun r r' => r.1 + r.2 ≤ r'.1

theorem frameSlots_descriptor {m : MethodSignature}
    (h : ∀ a ∈ m.argumentTypes, IsTypeName a.toList) :
    frameSlots m.descriptor = (m.argumentSlots false).map (·.1) := by
  unfold frameSlots parameterLetters
  rw [toList_descriptor]
  exact (map_fst_slotsFrom h 1 _).symm

theorem slotsAgree {m : MethodSignature} (h : ∀ a ∈ m.argumentTypes, IsTypeName a.toList) :
    m.SlotsAgree := by
  have hslots := (frameSlots_descriptor h).symm
  have hsignatures := map_snd_slotsFrom 1 (m.argumentTypes.map typeNameToSignature)
  have hwidths : m.argumentRanges.map (·.2) =
      ((m.argumentSlots false).map (·.2)).map slotWidth := by
    simp only [argumentRanges, List.map_map, Function.comp_def]
  constructor
  · exact hslots
  · exact hsignatures
  · rw [hwidths]
    refine (congrArg (List.map slotWidth) hsignatures).trans ?_
    rw [List.map_map]
    exact List.map_congr_left fun a ha => slotWidth_typeName (h a ha)
  · intro r hr
    obtain ⟨s, hs, rfl⟩ := Option.map_eq_some_iff.mp (List.head?_map.symm.trans hr)
    exact slotsFrom_head? _ _ s hs
  · exact (List.isChain_map _).mpr (slotsFrom_isChain _ _)
  · exact List.pairwise_map.mpr (slotsFrom_pairwise _ _)

/-- No two arguments begin at one slot, and none begins at that of the receiver. -/
theorem nodup_argumentSlots (m : MethodSignature) :
    (0 :: (m.argumentSlots false).map (·.1)).Nodup := by
  have hpos : ∀ s, 0 < slotWidth s := by
    intro s
    unfold slotWidth
    split <;> decide
  refine List.nodup_cons.mpr ⟨fun hmem => ?_, List.pairwise_map.mpr ?_⟩
  · obtain ⟨s, hs, hzero⟩ := List.mem_map.mp hmem
    have hone := le_of_mem_slotsFrom hs
    rw [hzero] at hone
    exact absurd hone (by decide)
  · refine (slotsFrom_pairwise _ _).imp fun {s s'} hle heq => ?_
    have hwidth := hpos s.2
    omega

end MethodSignature

end StreamTrace
