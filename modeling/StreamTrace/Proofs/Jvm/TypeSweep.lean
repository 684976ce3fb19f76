import Mathlib.Data.Finset.Card
import Mathlib.Data.Finset.Range
import Mathlib.Data.List.TakeWhile
import StreamTrace.Jdwp.Value

/-!
# Types above a type

A sweep looks at a type and at the types above it, nearest first and each once. It finds what is
nearest, and it finds something if there is anything to be found, whatever diamonds and cycles there
are above the type.
-/

namespace StreamTrace

variable {α : Type}

/-- What a search with the types of the queue and above them comes to, and the types that it passes
on the way. -/
def sweep (above : TypeId → List TypeId) (find : TypeId → Option α) :
    (fuel : Nat) → (seen queue : List TypeId) → Option α × List TypeId
  | 0, _, _ => (none, [])
  | fuel + 1, seen, queue =>
    match queue.dropWhile (· ∈ seen) with
    | [] => (none, [])
    | type :: rest =>
      match find type with
      | some a => (some a, [])
      | none =>
        let (found, passed) := sweep above find fuel (type :: seen) (rest ++ above type)
        (found, type :: passed)

/-- A type is reached from another one in so many steps. -/
inductive Reached (above : TypeId → List TypeId) (start : TypeId) : Nat → TypeId → Prop
  | start : Reached above start 0 start
  | step {n : Nat} {type type' : TypeId} (before : Reached above start n type)
    (next : type' ∈ above type) : Reached above start (n + 1) type'

theorem Reached.mono {above above' : TypeId → List TypeId} (h : ∀ t, above t ⊆ above' t)
    {start type : TypeId} {n : Nat} (ht : Reached above start n type) :
    Reached above' start n type := by
  induction ht with
  | start => exact .start
  | step _ next ih => exact .step ih (h _ next)

variable {above : TypeId → List TypeId} {find : TypeId → Option α} {start type : TypeId}
  {n : Nat} {seen queue near far rest : List TypeId}

theorem mem_dropWhile (h : type ∈ queue) :
    type ∈ seen ∨ type ∈ queue.dropWhile (· ∈ seen) := by
  rw [← List.takeWhile_append_dropWhile (p := fun t => decide (t ∈ seen)) (l := queue)] at h
  rcases List.mem_append.mp h with htaken | hdropped
  · exact .inl (by simpa using List.mem_takeWhile_imp htaken)
  · exact .inr hdropped

/-- In the middle of a sweep: `near` are types in `n` steps, and `far` are types in one step more.
What lies nearer was seen, and nothing was found there. -/
structure Sweeping (above : TypeId → List TypeId) (find : TypeId → Option α) (start : TypeId)
    (n : Nat) (seen near far : List TypeId) : Prop where
  isNear : ∀ t ∈ near, Reached above start n t
  isFar : ∀ t ∈ far, Reached above start (n + 1) t
  nearer : ∀ k t, k < n → Reached above start k t → t ∈ seen
  level : ∀ t, Reached above start n t → t ∈ seen ∨ t ∈ near
  closed : ∀ t ∈ seen, ∀ u ∈ above t, u ∈ seen ∨ u ∈ near ++ far
  missed : ∀ t ∈ seen, find t = none

namespace Sweeping

theorem init : Sweeping above find start 0 [] [start] [] where
  isNear := by
    rintro t ht
    rw [List.mem_singleton.mp ht]
    exact .start
  isFar := nofun
  nearer := nofun
  level := by
    rintro _ ⟨⟩
    exact .inr List.mem_cons_self
  closed := nofun
  missed := nofun

variable (h : Sweeping above find start n seen near far)

include h

/-- Types that were seen are dropped. -/
theorem drop : Sweeping above find start n seen (near.dropWhile (· ∈ seen)) far where
  isNear t ht := h.isNear t (List.dropWhile_subset _ ht)
  isFar := h.isFar
  nearer := h.nearer
  level t ht := (h.level t ht).elim .inl mem_dropWhile
  closed t ht u hu := by
    rcases h.closed t ht u hu with hseen | hqueued
    · exact .inl hseen
    · rcases List.mem_append.mp hqueued with hnear | hfar
      · exact (mem_dropWhile hnear).imp_right (List.mem_append_left _)
      · exact .inr (List.mem_append_right _ hfar)
  missed := h.missed

/-- Nothing is left that is so near, so the sweep goes on with what is one step further. -/
theorem advance (hnear : near = []) : Sweeping above find start (n + 1) seen far [] := by
  subst hnear
  have hlevel : ∀ t, Reached above start n t → t ∈ seen := fun t ht =>
    (h.level t ht).resolve_right List.not_mem_nil
  refine ⟨h.isFar, nofun, fun k t hk ht => ?_, fun t ht => ?_, fun t ht u hu => ?_, h.missed⟩
  · rcases Nat.lt_succ_iff_lt_or_eq.mp hk with hlt | rfl
    · exact h.nearer k t hlt ht
    · exact hlevel t ht
  · cases ht with
    | step before next => exact h.closed _ (hlevel _ before) t next
  · rw [List.append_nil]
    exact h.closed t ht u hu

/-- The next type of the queue was not seen, and lies at the distance that the sweep has come to. -/
theorem next (hqueue : (near ++ far).dropWhile (· ∈ seen) = type :: rest) :
    type ∉ seen ∧ ∃ n' rest' far', rest = rest' ++ far' ∧
      Sweeping above find start n' seen (type :: rest') far' := by
  have hseen : type ∉ seen := by
    have hhead := List.head?_dropWhile_not (fun t => decide (t ∈ seen)) (near ++ far)
    rw [hqueue] at hhead
    simpa using hhead
  refine ⟨hseen, ?_⟩
  rw [List.dropWhile_append] at hqueue
  cases hnear : near.dropWhile (· ∈ seen) with
  | nil =>
      rw [hnear] at hqueue
      refine ⟨n + 1, rest, [], (List.append_nil _).symm, ?_⟩
      have hfar := (h.drop.advance hnear).drop
      rwa [show far.dropWhile (· ∈ seen) = type :: rest from hqueue] at hfar
  | cons type' rest' =>
      rw [hnear] at hqueue
      obtain ⟨rfl, rfl⟩ := List.cons.inj (show type' :: (rest' ++ far) = type :: rest from hqueue)
      refine ⟨n, rest', far, rfl, ?_⟩
      have hdrop := h.drop
      rwa [hnear] at hdrop

/-- Once nothing is left in the queue, everything was seen. -/
theorem exhausted (hqueue : (near ++ far).dropWhile (· ∈ seen) = []) {k : Nat}
    (ht : Reached above start k type) : type ∈ seen := by
  have hqueued : ∀ t ∈ near ++ far, t ∈ seen := fun t ht => by
    have hpassed : t ∈ seen ∨ t ∈ (near ++ far).dropWhile (· ∈ seen) := mem_dropWhile ht
    rw [hqueue] at hpassed
    exact hpassed.resolve_right List.not_mem_nil
  induction ht with
  | start =>
      cases n with
      | zero => exact (h.level start .start).elim id fun ht => hqueued _ (List.mem_append_left _ ht)
      | succ n => exact h.nearer 0 start (Nat.succ_pos n) .start
  | step _ next ih => exact (h.closed _ ih _ next).elim id (hqueued _)

end Sweeping

/-- Nothing was found at the next type, so it is passed. -/
theorem Sweeping.pass (h : Sweeping above find start n seen (type :: rest) far)
    (hmiss : find type = none) :
    Sweeping above find start n (type :: seen) rest (far ++ above type) where
  isNear t ht := h.isNear t (List.mem_cons_of_mem _ ht)
  isFar t ht := by
    rcases List.mem_append.mp ht with hfar | habove
    · exact h.isFar t hfar
    · exact .step (h.isNear type List.mem_cons_self) habove
  nearer k t hk ht := List.mem_cons_of_mem _ (h.nearer k t hk ht)
  level t ht := by
    rcases h.level t ht with hseen | hnear
    · exact .inl (List.mem_cons_of_mem _ hseen)
    · rcases List.mem_cons.mp hnear with rfl | hrest
      · exact .inl List.mem_cons_self
      · exact .inr hrest
  closed t ht u hu := by
    rcases List.mem_cons.mp ht with rfl | hseen
    · exact .inr (List.mem_append_right _ (List.mem_append_right _ hu))
    · rcases h.closed t hseen u hu with hold | hqueued
      · exact .inl (List.mem_cons_of_mem _ hold)
      · rw [List.cons_append] at hqueued
        rcases List.mem_cons.mp hqueued with rfl | hqueued
        · exact .inl List.mem_cons_self
        · refine .inr ?_
          rw [← List.append_assoc]
          exact List.mem_append_left _ hqueued
  missed t ht := by
    rcases List.mem_cons.mp ht with rfl | hseen
    · exact hmiss
    · exact h.missed t hseen

/-- What a sweep finds is at a type that it reaches, and nothing is to be found nearer. -/
theorem Sweeping.found {fuel : Nat} {a : α} (h : Sweeping above find start n seen near far)
    (hfound : (sweep above find fuel seen (near ++ far)).1 = some a) :
    ∃ k t, Reached above start k t ∧ find t = some a ∧
      ∀ k' t', Reached above start k' t' → find t' ≠ none → k ≤ k' := by
  induction fuel generalizing n seen near far with
  | zero => cases hfound
  | succ fuel ih =>
      rw [sweep] at hfound
      cases hqueue : (near ++ far).dropWhile (· ∈ seen) with
      | nil =>
          rw [hqueue] at hfound
          cases hfound
      | cons type rest =>
          obtain ⟨-, n', rest', far', rfl, hnext⟩ := h.next hqueue
          simp only [hqueue] at hfound
          cases hfind : find type with
          | some a' =>
              rw [hfind] at hfound
              obtain rfl := Option.some.inj hfound
              have hnear := hnext.isNear type List.mem_cons_self
              refine ⟨n', type, hnear, hfind, fun k' t' ht' hsome => ?_⟩
              refine Nat.le_of_not_lt fun hlt => hsome (hnext.missed t' ?_)
              exact hnext.nearer k' t' hlt ht'
          | none =>
              rw [hfind] at hfound
              have hpassed := hnext.pass hfind
              rw [List.append_assoc] at hfound
              exact ih hpassed hfound

/-- The types that a sweep passes are reached, and each is passed once. -/
theorem Sweeping.passes {fuel : Nat} (h : Sweeping above find start n seen near far) :
    (sweep above find fuel seen (near ++ far)).2.Nodup ∧
      ∀ t ∈ (sweep above find fuel seen (near ++ far)).2,
        t ∉ seen ∧ ∃ k, Reached above start k t := by
  induction fuel generalizing n seen near far with
  | zero => exact ⟨.nil, nofun⟩
  | succ fuel ih =>
      rw [sweep]
      cases hqueue : (near ++ far).dropWhile (· ∈ seen) with
      | nil => exact ⟨.nil, nofun⟩
      | cons type rest =>
          obtain ⟨hseen, n', rest', far', rfl, hnext⟩ := h.next hqueue
          dsimp only
          cases hfind : find type with
          | some a => exact ⟨.nil, nofun⟩
          | none =>
              dsimp only
              rw [List.append_assoc]
              obtain ⟨hnodup, hnew⟩ := ih (hnext.pass hfind)
              refine ⟨List.nodup_cons.mpr ⟨fun ht => (hnew _ ht).1 List.mem_cons_self, hnodup⟩,
                fun t ht => ?_⟩
              rcases List.mem_cons.mp ht with rfl | ht
              · exact ⟨hseen, n', hnext.isNear _ List.mem_cons_self⟩
              · exact ⟨fun hmem => (hnew t ht).1 (List.mem_cons_of_mem _ hmem), (hnew t ht).2⟩

/-- All identifiers below `bound` are in a list of so many different ones. -/
theorem mem_of_nodup_of_bound {bound : Nat} (hnodup : seen.Nodup) (hseen : ∀ t ∈ seen, t < bound)
    (hlength : bound ≤ seen.length) (htype : type < bound) : type ∈ seen := by
  have hsub : seen.toFinset ⊆ Finset.range bound := fun t ht =>
    Finset.mem_range.mpr (hseen t (List.mem_toFinset.mp ht))
  have hcard : (Finset.range bound).card ≤ seen.toFinset.card := by
    rw [Finset.card_range, List.toFinset_card_of_nodup hnodup]
    exact hlength
  have hall := Finset.eq_of_subset_of_card_le hsub hcard
  exact List.mem_toFinset.mp (hall ▸ Finset.mem_range.mpr htype)

/-- A sweep that finds nothing has seen everything, if it may see as many types as there are. -/
theorem Sweeping.missing {fuel bound : Nat} (h : Sweeping above find start n seen near far)
    (hbound : ∀ k t, Reached above start k t → t < bound) (hnodup : seen.Nodup)
    (hseen : ∀ t ∈ seen, t < bound) (hfuel : bound ≤ fuel + seen.length)
    (hmissing : (sweep above find fuel seen (near ++ far)).1 = none) {k : Nat}
    (ht : Reached above start k type) : find type = none := by
  induction fuel generalizing n seen near far with
  | zero =>
      rw [Nat.zero_add] at hfuel
      exact h.missed type (mem_of_nodup_of_bound hnodup hseen hfuel (hbound k type ht))
  | succ fuel ih =>
      rw [sweep] at hmissing
      cases hqueue : (near ++ far).dropWhile (· ∈ seen) with
      | nil => exact h.missed type (h.exhausted hqueue ht)
      | cons type' rest =>
          obtain ⟨hnew, n', rest', far', rfl, hnext⟩ := h.next hqueue
          simp only [hqueue] at hmissing
          cases hfind : find type' with
          | some a =>
              rw [hfind] at hmissing
              cases hmissing
          | none =>
              rw [hfind, List.append_assoc] at hmissing
              refine ih (hnext.pass hfind) (List.nodup_cons.mpr ⟨hnew, hnodup⟩) ?_ ?_ hmissing
              · rintro t (_ | ⟨_, hmem⟩)
                · exact hbound n' _ (hnext.isNear _ List.mem_cons_self)
                · exact hseen t hmem
              · rw [List.length_cons]
                omega

end StreamTrace
