import Mathlib.Algebra.Group.Nat.Defs
import Mathlib.Data.List.Forall2
import Mathlib.Data.List.Nodup
import StreamTrace.Json.Record

/-!
# Amended JSON

Another writer may leave out members that have a default, add members of its own and put the
members of an object in another order. Whoever reads a record by the names of its fields finds the
same values: a name of the record occurs at most once, and only members that may be missing are.
-/

namespace StreamTrace

namespace Json

section

variable {mayGo : String → Json → Prop} {R : Json → Json → Prop}

/-- Members that were kept, in their order; those that are gone may go. -/
inductive Kept (mayGo : String → Json → Prop) (R : Json → Json → Prop) :
    List (String × Json) → List (String × Json) → Prop where
  | nil : Kept mayGo R [] []
  | keep (name : String) {j j' : Json} {members kept : List (String × Json)} (h : R j j')
      (hrest : Kept mayGo R members kept) : Kept mayGo R ((name, j) :: members) ((name, j') :: kept)
  | drop {name : String} {j : Json} {members kept : List (String × Json)} (h : mayGo name j)
      (hrest : Kept mayGo R members kept) : Kept mayGo R ((name, j) :: members) kept

/-- The same value but for members that are gone, came to it or stand elsewhere. -/
inductive Amends (mayGo : String → Json → Prop) : Json → Json → Prop where
  | same (j : Json) : Amends mayGo j j
  | arr {items items' : List Json} (h : List.Forall₂ (Amends mayGo) items items') :
      Amends mayGo (.arr items) (.arr items')
  | obj {members kept extra members' : List (String × Json)}
      (hkept : Kept mayGo (Amends mayGo) members kept)
      (hextra : ∀ m ∈ extra, m.1 ∉ members.map (·.1)) (hperm : members'.Perm (kept ++ extra)) :
      Amends mayGo (.obj members) (.obj members')

/-- The members of an object that was amended. -/
def AmendsMembers (mayGo : String → Json → Prop) (members members' : List (String × Json)) : Prop :=
  Amends mayGo (.obj members) (.obj members')

theorem Kept.refl (members : List (String × Json)) (h : ∀ j, R j j) :
    Kept mayGo R members members := by
  induction members with
  | nil => exact .nil
  | cons m rest ih => exact .keep m.1 (h m.2) ih

theorem name_mem_of_mem {members : List (String × Json)} {name : String} {j : Json}
    (h : (name, j) ∈ members) : name ∈ members.map (·.1) :=
  List.mem_map.mpr ⟨_, h, rfl⟩

/-- No member has changed its place among those that were kept. -/
theorem Kept.sublist {members kept : List (String × Json)} (h : Kept mayGo R members kept) :
    (kept.map (·.1)).Sublist (members.map (·.1)) := by
  induction h with
  | nil => exact .slnil
  | keep name _ _ ih => exact .cons_cons name ih
  | drop _ _ ih => exact .cons _ ih

/-- What was there was kept, or may go and is gone. -/
theorem Kept.of_mem {members kept : List (String × Json)} (h : Kept mayGo R members kept)
    (hnodup : (members.map (·.1)).Nodup) {name : String} {j : Json} (hmem : (name, j) ∈ members) :
    (∃ j', (name, j') ∈ kept ∧ R j j') ∨ mayGo name j ∧ name ∉ kept.map (·.1) := by
  induction h with
  | nil => cases hmem
  | keep other hj _ ih =>
      rw [List.map_cons, List.nodup_cons] at hnodup
      rcases List.mem_cons.mp hmem with heq | hmem
      · cases heq
        exact .inl ⟨_, List.mem_cons_self, hj⟩
      · have hne : name ≠ other := fun hname => hnodup.1 (hname ▸ name_mem_of_mem hmem)
        rcases ih hnodup.2 hmem with ⟨j', hj', hR⟩ | ⟨hgo, hgone⟩
        · exact .inl ⟨j', List.mem_cons_of_mem _ hj', hR⟩
        · exact .inr ⟨hgo, List.not_mem_cons_of_ne_of_not_mem hne hgone⟩
  | drop hgo hrest ih =>
      rw [List.map_cons, List.nodup_cons] at hnodup
      rcases List.mem_cons.mp hmem with heq | hmem
      · cases heq
        exact .inr ⟨hgo, fun hname => hnodup.1 (hrest.sublist.mem hname)⟩
      · exact ih hnodup.2 hmem

/-! ## Finding members -/

theorem find?_eq_none_of_not_mem {members : List (String × Json)} {name : String}
    (h : name ∉ members.map (·.1)) : find? members name = none := by
  rw [find?, Option.map_eq_none_iff, List.find?_eq_none]
  intro m hmem hname
  exact h (List.mem_map.mpr ⟨m, List.mem_reverse.mp hmem, by simpa using hname⟩)

/-- The only member of a name is the one that counts. -/
theorem find?_eq_of_mem {members : List (String × Json)} {name : String} {j : Json}
    (hmem : (name, j) ∈ members) (h : ∀ j', (name, j') ∈ members → j' = j) :
    find? members name = some j := by
  have hfound : (members.reverse.find? (·.1 == name)).isSome :=
    List.find?_isSome.mpr ⟨(name, j), List.mem_reverse.mpr hmem, beq_self_eq_true name⟩
  obtain ⟨⟨name', j'⟩, hm⟩ := Option.isSome_iff_exists.mp hfound
  obtain rfl : name' = name := by simpa using List.find?_some hm
  rw [find?, hm, h j' (List.mem_reverse.mp (List.mem_of_find?_eq_some hm))]
  rfl

end

section

variable {mayGo : String → Json → Prop} {members members' : List (String × Json)} {name : String}
  {j j' : Json}

/-- An amended object is an object. -/
theorem Amends.of_obj (h : Amends mayGo (.obj members) j) :
    ∃ members', j = .obj members' ∧ AmendsMembers mayGo members members' := by
  cases h with
  | same => exact ⟨members, rfl, .same _⟩
  | obj hkept hextra hperm => exact ⟨_, rfl, .obj hkept hextra hperm⟩

theorem Amends.of_arr {items : List Json} (h : Amends mayGo (.arr items) j) :
    ∃ items', j = .arr items' ∧ List.Forall₂ (Amends mayGo) items items' := by
  cases h with
  | same => exact ⟨items, rfl, List.forall₂_same.mpr fun j _ => .same j⟩
  | arr h => exact ⟨_, rfl, h⟩

theorem Amends.of_str {s : String} (h : Amends mayGo (.str s) j) : j = .str s := by
  cases h
  rfl

theorem Amends.of_int {n : Int} (h : Amends mayGo (.int n) j) : j = .int n := by
  cases h
  rfl

theorem Amends.of_null (h : Amends mayGo .null j) : j = .null := by
  cases h
  rfl

/-- A member is found as it was amended, or was left out. -/
theorem AmendsMembers.find?_or (h : AmendsMembers mayGo members members')
    (hnodup : (members.map (·.1)).Nodup) (hmem : (name, j) ∈ members) :
    (∃ j', find? members' name = some j' ∧ Amends mayGo j j') ∨
      find? members' name = none ∧ mayGo name j := by
  obtain ⟨kept, extra, hkept, hextra, hperm⟩ : ∃ kept extra,
      Kept mayGo (Amends mayGo) members kept ∧ (∀ m ∈ extra, m.1 ∉ members.map (·.1)) ∧
        members'.Perm (kept ++ extra) := by
    cases h with
    | same => exact ⟨members, [], .refl members .same, nofun, by simp⟩
    | obj hkept hextra hperm => exact ⟨_, _, hkept, hextra, hperm⟩
  have hname : name ∉ extra.map (·.1) := fun hcame => by
    obtain ⟨m, hm, rfl⟩ := List.mem_map.mp hcame
    exact hextra m hm (name_mem_of_mem hmem)
  rcases hkept.of_mem hnodup hmem with ⟨j', hj', hR⟩ | ⟨hgo, hgone⟩
  · refine .inl ⟨j', find?_eq_of_mem (hperm.mem_iff.mpr (List.mem_append_left _ hj')) ?_, hR⟩
    intro j'' hj''
    rcases List.mem_append.mp (hperm.mem_iff.mp hj'') with hj'' | hj''
    · have hsame := List.inj_on_of_nodup_map (hnodup.sublist hkept.sublist) hj'' hj' rfl
      exact congrArg Prod.snd hsame
    · exact absurd (name_mem_of_mem hj'') hname
  · refine .inr ⟨find?_eq_none_of_not_mem fun hfound => ?_, hgo⟩
    rw [(hperm.map _).mem_iff, List.map_append, List.mem_append] at hfound
    exact hfound.elim hgone hname

/-- A member that has to stay is found as it was amended. -/
theorem AmendsMembers.find? (h : AmendsMembers mayGo members members')
    (hnodup : (members.map (·.1)).Nodup) (hmem : (name, j) ∈ members) (hstay : ¬mayGo name j) :
    ∃ j', Json.find? members' name = some j' ∧ Amends mayGo j j' :=
  (h.find?_or hnodup hmem).resolve_right fun hgone => hstay hgone.2

/-! ## Reading what was amended -/

theorem intIn?_int {low high n : Int} (h : low ≤ n) (h' : n < high) :
    (int n).intIn? low high = some n := by
  simp [intIn?, asInt?, h, h']

theorem natBelow?_int (bits n : Nat) :
    (int n).natBelow? bits = if n < 2 ^ bits then some n else none := by
  have hbelow : (n : Int) < (Nat.pow 2 bits : Nat) ↔ n < 2 ^ bits := Int.ofNat_lt
  by_cases h : n < 2 ^ bits
  · rw [natBelow?, intIn?_int (Int.natCast_nonneg n) (hbelow.mpr h), if_pos h]
    rfl
  · have hrefused : (int n).intIn? 0 (Nat.pow 2 bits : Nat) = none :=
      Option.filter_eq_none_iff.mpr fun m hm => by
        obtain rfl : (n : Int) = m := Option.some.inj hm
        simpa using mt hbelow.mp h
    rw [natBelow?, hrefused, if_neg h]
    rfl

variable {α β : Type} {read : Json → Option α} {a : α} {f : α → FieldReader β}

/-- Behind a field that is read comes the rest of the record. -/
theorem bind_of_read {r : FieldReader α} {f : α → FieldReader β} {source source' : Source}
    (h : r source = some (a, source')) : (r >>= f) source = f a source' := by
  show (r source).bind (fun read => f read.1 read.2) = _
  rw [h]
  rfl

theorem nextField_named (name : String) (members : List (String × Json)) :
    nextField name (.named members) = some (find? members name, .named members) := rfl

theorem field_named (read : Json → Option α) (name : String) (members : List (String × Json)) :
    field name read (.named members) =
      ((find? members name).bind read).map (·, .named members) := by
  rw [field, bind_of_read (nextField_named name members)]
  cases find? members name <;> rfl

theorem fieldOr_named (fallback : α) (read : Json → Option α) (name : String)
    (members : List (String × Json)) :
    fieldOr name fallback read (.named members) =
      (((find? members name).map read).getD (some fallback)).map (·, .named members) := by
  rw [fieldOr, bind_of_read (nextField_named name members)]
  cases find? members name <;> rfl

theorem listOf_amended {write : α → Json} {as : List α} (h : Amends mayGo (.arr (as.map write)) j)
    (hread : ∀ a ∈ as, ∀ j, Amends mayGo (write a) j → read j = some a) :
    listOf read j = some as := by
  obtain ⟨items, rfl, hitems⟩ := h.of_arr
  show items.mapM read = some as
  rw [List.forall₂_map_left_iff] at hitems
  clear h
  induction hitems with
  | nil => rfl
  | cons ha _ ih =>
      rw [List.mapM_cons, hread _ List.mem_cons_self _ ha,
        ih fun a ha => hread a (List.mem_cons_of_mem _ ha)]
      rfl

variable (h : AmendsMembers mayGo members members') (hnodup : (members.map (·.1)).Nodup)
  (hmem : (name, j) ∈ members)

include h hnodup hmem

/-- A field is read from its amended member. -/
theorem AmendsMembers.field_bind (hstay : ¬mayGo name j)
    (hread : ∀ j', Amends mayGo j j' → read j' = some a) :
    (field name read >>= f) (.named members') = f a (.named members') := by
  obtain ⟨j', hfound, hj'⟩ := h.find? hnodup hmem hstay
  refine bind_of_read ?_
  rw [field_named, hfound, Option.bind_some, hread j' hj']
  rfl

/-- A field that may be missing is read from its amended member, if that is still there. -/
theorem AmendsMembers.fieldOr_bind {fallback : α} (hgone : mayGo name j → a = fallback)
    (hread : ∀ j', Amends mayGo j j' → read j' = some a) :
    (fieldOr name fallback read >>= f) (.named members') = f a (.named members') := by
  refine bind_of_read ?_
  rw [fieldOr_named]
  rcases h.find?_or hnodup hmem with ⟨j', hfound, hj'⟩ | ⟨hfound, hgo⟩
  · rw [hfound, Option.map_some, Option.getD_some, hread j' hj']
    rfl
  · rw [hfound, ← hgone hgo]
    rfl

/-- Where there are names, a field that may be null is one that may be missing. -/
theorem AmendsMembers.optionalField_bind {o : Option α} {f : Option α → FieldReader β}
    (hgone : mayGo name j → o = none)
    (hread : ∀ j', Amends mayGo j j' → nullable read j' = some o) :
    (optionalField name read >>= f) (.named members') = f o (.named members') :=
  h.fieldOr_bind hnodup hmem hgone hread

end

end Json

end StreamTrace
