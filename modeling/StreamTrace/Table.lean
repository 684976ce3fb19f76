/-!
# Tables

Finite tables from keys to values. A table keeps its keys in the order in which they were first
set, and setting a key again replaces its value in place. The lemmas say what each operation does
to `get?`, which is all that a reader of a table sees besides the order of the keys.
-/

namespace StreamTrace

/-- A finite table: at most one value per key, in the order in which the keys were first set. -/
structure Table (κ β : Type) where
  entries : List (κ × β) := []
  deriving Repr, DecidableEq

namespace Table

variable {κ β : Type} [DecidableEq κ]

instance : Inhabited (Table κ β) := ⟨{}⟩

def lookup (k : κ) : List (κ × β) → Option β
  | [] => none
  | (k', v) :: rest => if k' = k then some v else lookup k rest

def replace (k : κ) (v : β) : List (κ × β) → List (κ × β)
  | [] => [(k, v)]
  | (k', v') :: rest => if k' = k then (k, v) :: rest else (k', v') :: replace k v rest

def get? (t : Table κ β) (k : κ) : Option β := lookup k t.entries

def contains (t : Table κ β) (k : κ) : Bool := (t.get? k).isSome

def set (t : Table κ β) (k : κ) (v : β) : Table κ β := ⟨replace k v t.entries⟩

def erase (t : Table κ β) (k : κ) : Table κ β := ⟨t.entries.filter fun e => e.1 ≠ k⟩

def keys (t : Table κ β) : List κ := t.entries.map (·.1)

def values (t : Table κ β) : List β := t.entries.map (·.2)

def size (t : Table κ β) : Nat := t.entries.length

@[simp] theorem get?_empty (k : κ) : ({} : Table κ β).get? k = none := rfl

theorem lookup_replace_self (k : κ) (v : β) (es : List (κ × β)) :
    lookup k (replace k v es) = some v := by
  induction es with
  | nil => simp [replace, lookup]
  | cons e rest ih =>
    obtain ⟨k', v'⟩ := e
    by_cases h : k' = k
    · simp [replace, lookup, h]
    · simp [replace, lookup, h, ih]

theorem lookup_replace_of_ne {k k' : κ} (v : β) (h : k' ≠ k) (es : List (κ × β)) :
    lookup k (replace k' v es) = lookup k es := by
  induction es with
  | nil => simp [replace, lookup, h]
  | cons e rest ih =>
    obtain ⟨k'', v''⟩ := e
    by_cases h' : k'' = k'
    · subst h'; simp [replace, lookup, h]
    · simp only [replace, h', if_false, lookup, ih]

@[simp] theorem get?_set_self (t : Table κ β) (k : κ) (v : β) : (t.set k v).get? k = some v :=
  lookup_replace_self k v t.entries

theorem get?_set_of_ne (t : Table κ β) {k k' : κ} (v : β) (h : k' ≠ k) :
    (t.set k' v).get? k = t.get? k :=
  lookup_replace_of_ne v h t.entries

theorem get?_set (t : Table κ β) (k k' : κ) (v : β) :
    (t.set k v).get? k' = if k = k' then some v else t.get? k' := by
  by_cases h : k = k'
  · subst h; simp
  · simp [h, get?_set_of_ne t v h]

theorem lookup_filter_self (k : κ) (es : List (κ × β)) :
    lookup k (es.filter fun e => e.1 ≠ k) = none := by
  induction es with
  | nil => rfl
  | cons e rest ih =>
    by_cases h : e.1 = k
    · simp [h] at ih ⊢; exact ih
    · simp [h, lookup] at ih ⊢; exact ih

theorem lookup_filter_of_ne {k k' : κ} (h : k' ≠ k) (es : List (κ × β)) :
    lookup k (es.filter fun e => e.1 ≠ k') = lookup k es := by
  induction es with
  | nil => rfl
  | cons e rest ih =>
    obtain ⟨k'', v''⟩ := e
    by_cases h' : k'' = k'
    · subst h'; simp [lookup, h] at ih ⊢; exact ih
    · simp [lookup, h'] at ih ⊢; rw [ih]

@[simp] theorem get?_erase_self (t : Table κ β) (k : κ) : (t.erase k).get? k = none :=
  lookup_filter_self k t.entries

theorem get?_erase_of_ne (t : Table κ β) {k k' : κ} (h : k' ≠ k) :
    (t.erase k').get? k = t.get? k :=
  lookup_filter_of_ne h t.entries

/-! An entry of a table, whether or not its key stands in front of it once more. -/

theorem mem_of_lookup {k : κ} {v : β} {es : List (κ × β)} (h : lookup k es = some v) :
    (k, v) ∈ es := by
  induction es with
  | nil => cases h
  | cons e rest ih =>
    obtain ⟨k', v'⟩ := e
    rw [lookup] at h
    split at h
    next hk => cases h; exact hk ▸ List.mem_cons_self
    next => exact List.mem_cons_of_mem _ (ih h)

theorem mem_entries_of_get? {t : Table κ β} {k : κ} {v : β} (h : t.get? k = some v) :
    (k, v) ∈ t.entries :=
  mem_of_lookup h

theorem map_fst_replace (k : κ) (v : β) (es : List (κ × β)) :
    (replace k v es).map (·.1) =
      if k ∈ es.map (·.1) then es.map (·.1) else es.map (·.1) ++ [k] := by
  induction es with
  | nil => rfl
  | cons e rest ih =>
    obtain ⟨k', v'⟩ := e
    by_cases h : k' = k
    · simp [replace, h]
    · have hne : ¬k = k' := fun heq => h heq.symm
      simp only [replace, h, if_false, List.map_cons, ih, List.mem_cons, hne, false_or]
      split <;> rfl

/-- Setting a key keeps the keys apart. -/
theorem nodup_keys_set {t : Table κ β} (h : t.keys.Nodup) (k : κ) (v : β) :
    (t.set k v).keys.Nodup := by
  unfold keys set
  rw [map_fst_replace]
  split
  next => exact h
  next hk =>
    refine List.nodup_append.mpr ⟨h, List.pairwise_singleton _ _, fun a ha b hb => ?_⟩
    rw [List.mem_singleton.mp hb]
    rintro rfl
    exact hk ha

theorem nodup_keys_erase {t : Table κ β} (h : t.keys.Nodup) (k : κ) : (t.erase k).keys.Nodup :=
  h.sublist (List.filter_sublist.map _)

theorem mem_of_mem_replace_of_nodup {e : κ × β} {k : κ} {v : β} {es : List (κ × β)}
    (hkeys : (es.map (·.1)).Nodup) (h : e ∈ replace k v es) : e = (k, v) ∨ e ∈ es ∧ e.1 ≠ k := by
  induction es with
  | nil => exact .inl (List.mem_singleton.mp h)
  | cons e' rest ih =>
    obtain ⟨k', v'⟩ := e'
    obtain ⟨hnew, hkeys⟩ := List.nodup_cons.mp hkeys
    rw [replace] at h
    split at h
    next hk =>
      subst hk
      rcases List.mem_cons.mp h with heq | hrest
      · exact .inl heq
      · refine .inr ⟨List.mem_cons_of_mem _ hrest, ?_⟩
        intro heq
        exact hnew (List.mem_map.mpr ⟨e, hrest, heq⟩)
    next hk =>
      rcases List.mem_cons.mp h with rfl | h
      · exact .inr ⟨List.mem_cons_self, hk⟩
      · exact (ih hkeys h).imp id fun hrest => ⟨List.mem_cons_of_mem _ hrest.1, hrest.2⟩

/-- When the keys are apart, the entry of a key that is set is the only one for it. -/
theorem mem_entries_of_set_of_nodup {t : Table κ β} (hkeys : t.keys.Nodup) {e : κ × β} {k : κ}
    {v : β} (h : e ∈ (t.set k v).entries) : e = (k, v) ∨ e ∈ t.entries ∧ e.1 ≠ k :=
  mem_of_mem_replace_of_nodup hkeys h

theorem mem_entries_erase {t : Table κ β} {e : κ × β} {k : κ} :
    e ∈ (t.erase k).entries ↔ e ∈ t.entries ∧ e.1 ≠ k := by
  simp [erase]

end Table

end StreamTrace
