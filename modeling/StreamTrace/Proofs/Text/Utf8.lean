import StreamTrace.Text.Utf8

/-!
# UTF-8 round trip

Decoding finds the characters that were encoded. A character takes one to four bytes, and for each
length there is one lemma that reads them; `decode_encode` says it of a whole text. No other bytes
spell a text: `encode_of_decode`.
-/

namespace StreamTrace

namespace Utf8

theorem toNat_byte {n : Nat} (h : n < 256) : (UInt8.ofNat n).toNat = n := by
  rw [UInt8.toNat_ofNat', Nat.mod_eq_of_lt h]

theorem isContinuation_byte {n : Nat} (h : n < 64) :
    isContinuation (UInt8.ofNat (0x80 + n)) = true := by
  unfold isContinuation
  rw [toNat_byte (by omega), beq_iff_eq]
  omega

/-- What a continuation byte adds to its character. -/
theorem toNat_continuation {n : Nat} (h : n < 64) : (UInt8.ofNat (0x80 + n)).toNat % 64 = n := by
  rw [toNat_byte (by omega)]
  omega

/-! ## One character -/

section Step

variable {a b c d : Nat} (rest : Bytes)

theorem step_one (ha : a < 0x80) : step (UInt8.ofNat a) rest = .ok (Char.ofNat a, 1) := by
  have hfirst : UInt8.ofNat a < 0x80 := by
    rw [UInt8.lt_iff_toNat_lt, toNat_byte (by omega)]
    exact ha
  unfold step
  rw [if_pos hfirst, toNat_byte (by omega)]

theorem step_two (ha : 2 ≤ a) (ha' : a < 32) (hb : b < 64) :
    step (UInt8.ofNat (0xC0 + a)) (UInt8.ofNat (0x80 + b) :: rest)
      = .ok (Char.ofNat (a * 64 + b), 2) := by
  have hfirst : (UInt8.ofNat (0xC0 + a)).toNat = 0xC0 + a := toNat_byte (by omega)
  have hone : ¬UInt8.ofNat (0xC0 + a) < 0x80 := by
    rw [UInt8.lt_iff_toNat_lt, hfirst]
    show ¬0xC0 + a < 0x80
    omega
  have htwo : 0xC2 ≤ UInt8.ofNat (0xC0 + a) ∧ UInt8.ofNat (0xC0 + a) ≤ 0xDF := by
    rw [UInt8.le_iff_toNat_le, UInt8.le_iff_toNat_le, hfirst]
    show 0xC2 ≤ 0xC0 + a ∧ 0xC0 + a ≤ 0xDF
    omega
  unfold step
  rw [if_neg hone, if_pos htwo]
  dsimp only
  rw [if_pos (isContinuation_byte hb), hfirst, toNat_continuation hb, Nat.add_sub_cancel_left]

theorem step_three (ha : a < 16) (hb : b < 64) (hc : c < 64) (hlong : a = 0 → 32 ≤ b)
    (hsurrogate : a = 13 → b < 32) :
    step (UInt8.ofNat (0xE0 + a)) (UInt8.ofNat (0x80 + b) :: UInt8.ofNat (0x80 + c) :: rest)
      = .ok (Char.ofNat (a * 4096 + b * 64 + c), 3) := by
  have hfirst : (UInt8.ofNat (0xE0 + a)).toNat = 0xE0 + a := toNat_byte (by omega)
  have hsecond : (UInt8.ofNat (0x80 + b)).toNat = 0x80 + b := toNat_byte (by omega)
  have hone : ¬UInt8.ofNat (0xE0 + a) < 0x80 := by
    rw [UInt8.lt_iff_toNat_lt, hfirst]
    show ¬0xE0 + a < 0x80
    omega
  have htwo : ¬(0xC2 ≤ UInt8.ofNat (0xE0 + a) ∧ UInt8.ofNat (0xE0 + a) ≤ 0xDF) := by
    rw [UInt8.le_iff_toNat_le, UInt8.le_iff_toNat_le, hfirst]
    show ¬(0xC2 ≤ 0xE0 + a ∧ 0xE0 + a ≤ 0xDF)
    omega
  have hthree : 0xE0 ≤ UInt8.ofNat (0xE0 + a) ∧ UInt8.ofNat (0xE0 + a) ≤ 0xEF := by
    rw [UInt8.le_iff_toNat_le, UInt8.le_iff_toNat_le, hfirst]
    show 0xE0 ≤ 0xE0 + a ∧ 0xE0 + a ≤ 0xEF
    omega
  have hallowed : secondOfThree (UInt8.ofNat (0xE0 + a)) (UInt8.ofNat (0x80 + b)) = true := by
    simp only [secondOfThree, isContinuation_byte hb, Bool.true_and, ← UInt8.toNat_inj,
      UInt8.le_iff_toNat_le, hfirst, hsecond]
    split
    · rename_i h
      have : 0xE0 + a = 0xE0 := h
      exact decide_eq_true (show 0xA0 ≤ 0x80 + b by omega)
    split
    · rename_i h
      have : 0xE0 + a = 0xED := h
      exact decide_eq_true (show 0x80 + b ≤ 0x9F by omega)
    · rfl
  unfold step
  rw [if_neg hone, if_neg htwo, if_pos hthree]
  dsimp only
  rw [if_pos hallowed, if_pos (isContinuation_byte hc), hfirst, toNat_continuation hb,
    toNat_continuation hc, Nat.add_sub_cancel_left]

theorem step_four (ha : a < 5) (hb : b < 64) (hc : c < 64) (hd : d < 64) (hlong : a = 0 → 16 ≤ b)
    (hlast : a = 4 → b < 16) :
    step (UInt8.ofNat (0xF0 + a)) (UInt8.ofNat (0x80 + b) :: UInt8.ofNat (0x80 + c) ::
        UInt8.ofNat (0x80 + d) :: rest)
      = .ok (Char.ofNat (a * 262144 + b * 4096 + c * 64 + d), 4) := by
  have hfirst : (UInt8.ofNat (0xF0 + a)).toNat = 0xF0 + a := toNat_byte (by omega)
  have hsecond : (UInt8.ofNat (0x80 + b)).toNat = 0x80 + b := toNat_byte (by omega)
  have hone : ¬UInt8.ofNat (0xF0 + a) < 0x80 := by
    rw [UInt8.lt_iff_toNat_lt, hfirst]
    show ¬0xF0 + a < 0x80
    omega
  have htwo : ¬(0xC2 ≤ UInt8.ofNat (0xF0 + a) ∧ UInt8.ofNat (0xF0 + a) ≤ 0xDF) := by
    rw [UInt8.le_iff_toNat_le, UInt8.le_iff_toNat_le, hfirst]
    show ¬(0xC2 ≤ 0xF0 + a ∧ 0xF0 + a ≤ 0xDF)
    omega
  have hthree : ¬(0xE0 ≤ UInt8.ofNat (0xF0 + a) ∧ UInt8.ofNat (0xF0 + a) ≤ 0xEF) := by
    rw [UInt8.le_iff_toNat_le, UInt8.le_iff_toNat_le, hfirst]
    show ¬(0xE0 ≤ 0xF0 + a ∧ 0xF0 + a ≤ 0xEF)
    omega
  have hfour : 0xF0 ≤ UInt8.ofNat (0xF0 + a) ∧ UInt8.ofNat (0xF0 + a) ≤ 0xF4 := by
    rw [UInt8.le_iff_toNat_le, UInt8.le_iff_toNat_le, hfirst]
    show 0xF0 ≤ 0xF0 + a ∧ 0xF0 + a ≤ 0xF4
    omega
  have hallowed : secondOfFour (UInt8.ofNat (0xF0 + a)) (UInt8.ofNat (0x80 + b)) = true := by
    simp only [secondOfFour, isContinuation_byte hb, Bool.true_and, ← UInt8.toNat_inj,
      UInt8.le_iff_toNat_le, hfirst, hsecond]
    split
    · rename_i h
      have : 0xF0 + a = 0xF0 := h
      exact decide_eq_true (show 0x90 ≤ 0x80 + b by omega)
    split
    · rename_i h
      have : 0xF0 + a = 0xF4 := h
      exact decide_eq_true (show 0x80 + b ≤ 0x8F by omega)
    · rfl
  unfold step
  rw [if_neg hone, if_neg htwo, if_neg hthree, if_pos hfour]
  dsimp only
  rw [if_pos hallowed, if_pos (isContinuation_byte hc), if_pos (isContinuation_byte hd), hfirst,
    toNat_continuation hb, toNat_continuation hc, toNat_continuation hd, Nat.add_sub_cancel_left]

end Step

/-- The first byte of a character tells how many belong to it, and they spell it. -/
theorem step_encodeChar (c : Char) : ∃ first tail, encodeChar c = first :: tail ∧
    ∀ rest, step first (tail ++ rest) = .ok (c, tail.length + 1) := by
  have hvalid : c.toNat < 0xD800 ∨ 0xDFFF < c.toNat ∧ c.toNat < 0x110000 := c.valid
  have hc : Char.ofNat c.toNat = c := Char.ofNat_toNat c
  unfold encodeChar
  generalize c.toNat = n at hvalid hc ⊢
  dsimp only
  by_cases h1 : n < 0x80
  · exact ⟨_, [], if_pos h1, fun rest => hc ▸ step_one rest h1⟩
  rw [if_neg h1]
  by_cases h2 : n < 0x800
  · refine ⟨_, [_], if_pos h2, fun rest => ?_⟩
    have hspelt : n / 64 * 64 + n % 64 = n := by omega
    have hstep := step_two rest (a := n / 64) (b := n % 64) (by omega) (by omega) (by omega)
    rwa [hspelt, hc] at hstep
  rw [if_neg h2]
  by_cases h3 : n < 0x10000
  · refine ⟨_, [_, _], if_pos h3, fun rest => ?_⟩
    have hspelt : n / 4096 * 4096 + n / 64 % 64 * 64 + n % 64 = n := by omega
    have hstep := step_three rest (a := n / 4096) (b := n / 64 % 64) (c := n % 64) (by omega)
      (by omega) (by omega) (by omega) (by omega)
    rwa [hspelt, hc] at hstep
  · refine ⟨_, [_, _, _], if_neg h3, fun rest => ?_⟩
    have hspelt : n / 262144 * 262144 + n / 4096 % 64 * 4096 + n / 64 % 64 * 64 + n % 64 = n := by
      omega
    have hstep := step_four rest (a := n / 262144) (b := n / 4096 % 64) (c := n / 64 % 64)
      (d := n % 64) (by omega) (by omega) (by omega) (by omega) (by omega) (by omega)
    rwa [hspelt, hc] at hstep

/-! ## A text -/

theorem decodeFrom_skip (index : Nat) (tail rest : Bytes) :
    decodeFrom index tail.length (tail ++ rest) = decodeFrom (index + tail.length) 0 rest := by
  induction tail generalizing index with
  | nil => rfl
  | cons b tail ih =>
      rw [List.length_cons, List.cons_append, decodeFrom, ih]
      congr 1
      omega

theorem decodeFrom_encodeChars (index : Nat) (cs : List Char) :
    decodeFrom index 0 (encodeChars cs) = .ok cs := by
  induction cs generalizing index with
  | nil => rfl
  | cons c cs ih =>
      obtain ⟨first, tail, hchar, hstep⟩ := step_encodeChar c
      have hchars : encodeChars (c :: cs) = first :: (tail ++ encodeChars cs) := by
        rw [encodeChars, List.flatMap_cons, hchar]
        rfl
      rw [hchars, decodeFrom, hstep]
      dsimp only
      rw [Nat.add_sub_cancel, decodeFrom_skip, ih]
      rfl

theorem decode_encode (s : String) : decode (encode s) = .ok s := by
  unfold decode encode
  rw [decodeFrom_encodeChars]
  exact congrArg Except.ok String.ofList_toList

/-! ## What a decoded text was read from -/

theorem toNat_ofNat_char {n : Nat} (h : n.isValidChar) : (Char.ofNat n).toNat = n := by
  unfold Char.ofNat
  rw [dif_pos h]
  rfl

theorem ofNat_eq {n : Nat} {b : UInt8} (h : n = b.toNat) : UInt8.ofNat n = b := by
  rw [h, UInt8.ofNat_toNat]

theorem toNat_of_isContinuation {b : UInt8} (h : isContinuation b = true) :
    128 ≤ b.toNat ∧ b.toNat < 192 := by
  unfold isContinuation at h
  rw [beq_iff_eq] at h
  omega

theorem toNat_of_secondOfThree {first second : UInt8} (h : secondOfThree first second = true) :
    128 ≤ second.toNat ∧ second.toNat < 192 ∧ (first.toNat = 0xE0 → 0xA0 ≤ second.toNat) ∧
      (first.toNat = 0xED → second.toNat < 0xA0) := by
  unfold secondOfThree at h
  rw [Bool.and_eq_true] at h
  obtain ⟨hcontinuation, hrange⟩ := h
  obtain ⟨hlow, hhigh⟩ := toNat_of_isContinuation hcontinuation
  refine ⟨hlow, hhigh, fun hfirst => ?_, fun hfirst => ?_⟩
  · rw [if_pos (show first = 0xE0 from UInt8.toNat_inj.mp hfirst),
      decide_eq_true_eq] at hrange
    exact UInt8.le_iff_toNat_le.mp hrange
  · obtain rfl : first = 0xED := UInt8.toNat_inj.mp hfirst
    rw [if_neg (by decide), if_pos rfl, decide_eq_true_eq] at hrange
    exact Nat.lt_succ_of_le (UInt8.le_iff_toNat_le.mp hrange)

theorem toNat_of_secondOfFour {first second : UInt8} (h : secondOfFour first second = true) :
    128 ≤ second.toNat ∧ second.toNat < 192 ∧ (first.toNat = 0xF0 → 0x90 ≤ second.toNat) ∧
      (first.toNat = 0xF4 → second.toNat < 0x90) := by
  unfold secondOfFour at h
  rw [Bool.and_eq_true] at h
  obtain ⟨hcontinuation, hrange⟩ := h
  obtain ⟨hlow, hhigh⟩ := toNat_of_isContinuation hcontinuation
  refine ⟨hlow, hhigh, fun hfirst => ?_, fun hfirst => ?_⟩
  · rw [if_pos (show first = 0xF0 from UInt8.toNat_inj.mp hfirst),
      decide_eq_true_eq] at hrange
    exact UInt8.le_iff_toNat_le.mp hrange
  · obtain rfl : first = 0xF4 := UInt8.toNat_inj.mp hfirst
    rw [if_neg (by decide), if_pos rfl, decide_eq_true_eq] at hrange
    exact Nat.lt_succ_of_le (UInt8.le_iff_toNat_le.mp hrange)

theorem encodeChar_two {a b : Nat} (ha : 2 ≤ a) (ha' : a < 32) (hb : b < 64) :
    encodeChar (Char.ofNat (a * 64 + b)) = [UInt8.ofNat (0xC0 + a), UInt8.ofNat (0x80 + b)] := by
  have hvalid : (a * 64 + b).isValidChar := .inl (by omega)
  unfold encodeChar
  rw [toNat_ofNat_char hvalid]
  dsimp only
  rw [if_neg (by omega), if_pos (by omega), show (a * 64 + b) / 64 = a by omega,
    show (a * 64 + b) % 64 = b by omega]

theorem encodeChar_three {a b c : Nat} (ha : a < 16) (hb : b < 64) (hc : c < 64)
    (hlong : a = 0 → 32 ≤ b) (hsurrogate : a = 13 → b < 32) :
    encodeChar (Char.ofNat (a * 4096 + b * 64 + c)) =
      [UInt8.ofNat (0xE0 + a), UInt8.ofNat (0x80 + b), UInt8.ofNat (0x80 + c)] := by
  have hvalid : (a * 4096 + b * 64 + c).isValidChar := by
    unfold Nat.isValidChar
    omega
  unfold encodeChar
  rw [toNat_ofNat_char hvalid]
  dsimp only
  rw [if_neg (by omega), if_neg (by omega), if_pos (by omega),
    show (a * 4096 + b * 64 + c) / 4096 = a by omega,
    show (a * 4096 + b * 64 + c) / 64 % 64 = b by omega,
    show (a * 4096 + b * 64 + c) % 64 = c by omega]

theorem encodeChar_four {a b c d : Nat} (ha : a < 5) (hb : b < 64) (hc : c < 64) (hd : d < 64)
    (hlong : a = 0 → 16 ≤ b) (hlast : a = 4 → b < 16) :
    encodeChar (Char.ofNat (a * 262144 + b * 4096 + c * 64 + d)) =
      [UInt8.ofNat (0xF0 + a), UInt8.ofNat (0x80 + b), UInt8.ofNat (0x80 + c),
        UInt8.ofNat (0x80 + d)] := by
  have hvalid : (a * 262144 + b * 4096 + c * 64 + d).isValidChar := by
    unfold Nat.isValidChar
    omega
  unfold encodeChar
  rw [toNat_ofNat_char hvalid]
  dsimp only
  rw [if_neg (by omega), if_neg (by omega), if_neg (by omega),
    show (a * 262144 + b * 4096 + c * 64 + d) / 262144 = a by omega,
    show (a * 262144 + b * 4096 + c * 64 + d) / 4096 % 64 = b by omega,
    show (a * 262144 + b * 4096 + c * 64 + d) / 64 % 64 = c by omega,
    show (a * 262144 + b * 4096 + c * 64 + d) % 64 = d by omega]

/-- A character that was read is spelled by the bytes it was read from. -/
theorem encodeChar_of_step {first : UInt8} {rest : Bytes} {c : Char} {n : Nat}
    (h : step first rest = .ok (c, n)) :
    ∃ tail behind, rest = tail ++ behind ∧ encodeChar c = first :: tail ∧ n = tail.length + 1 := by
  -- By the length that the first byte announces. What a shorter form could spell is ruled out
  -- there, so the way back takes the same form.
  unfold step at h
  simp only at h
  split at h
  next hone =>
    obtain ⟨rfl, rfl⟩ : Char.ofNat first.toNat = c ∧ 1 = n := by simpa using h
    have hlow : first.toNat < 128 := UInt8.lt_iff_toNat_lt.mp hone
    refine ⟨[], rest, rfl, ?_, rfl⟩
    unfold encodeChar
    rw [toNat_ofNat_char (.inl (by omega))]
    dsimp only
    rw [if_pos hlow, UInt8.ofNat_toNat]
  split at h
  next htwo =>
    have hlow : 0xC2 ≤ first.toNat := UInt8.le_iff_toNat_le.mp htwo.1
    have hhigh : first.toNat ≤ 0xDF := UInt8.le_iff_toNat_le.mp htwo.2
    split at h
    next => cases h
    next b behind =>
      split at h
      next hb =>
        obtain ⟨rfl, rfl⟩ := Prod.mk.inj (Except.ok.inj h)
        have hb := toNat_of_isContinuation hb
        refine ⟨[b], behind, rfl, ?_, rfl⟩
        rw [encodeChar_two (by omega) (by omega) (by omega), ofNat_eq (b := first) (by omega),
          ofNat_eq (b := b) (by omega)]
      next => cases h
  split at h
  next hthree =>
    have hlow : 0xE0 ≤ first.toNat := UInt8.le_iff_toNat_le.mp hthree.1
    have hhigh : first.toNat ≤ 0xEF := UInt8.le_iff_toNat_le.mp hthree.2
    split at h
    next => cases h
    next b rest =>
      split at h
      next hb =>
        split at h
        next => cases h
        next c behind =>
          split at h
          next hc =>
            obtain ⟨rfl, rfl⟩ := Prod.mk.inj (Except.ok.inj h)
            obtain ⟨hblow, hbhigh, hlong, hsurrogate⟩ := toNat_of_secondOfThree hb
            obtain ⟨hclow, hchigh⟩ := toNat_of_isContinuation hc
            refine ⟨[b, c], behind, rfl, ?_, rfl⟩
            rw [encodeChar_three (by omega) (by omega) (by omega) (by omega) (by omega),
              ofNat_eq (b := first) (by omega), ofNat_eq (b := b) (by omega),
              ofNat_eq (b := c) (by omega)]
          next => cases h
      next => cases h
  split at h
  next hfour =>
    have hlow : 0xF0 ≤ first.toNat := UInt8.le_iff_toNat_le.mp hfour.1
    have hhigh : first.toNat ≤ 0xF4 := UInt8.le_iff_toNat_le.mp hfour.2
    split at h
    next => cases h
    next b rest =>
      split at h
      next hb =>
        split at h
        next => cases h
        next c rest =>
          split at h
          next hc =>
            split at h
            next => cases h
            next d behind =>
              split at h
              next hd =>
                obtain ⟨rfl, rfl⟩ := Prod.mk.inj (Except.ok.inj h)
                obtain ⟨hblow, hbhigh, hlong, hlast⟩ := toNat_of_secondOfFour hb
                obtain ⟨hclow, hchigh⟩ := toNat_of_isContinuation hc
                obtain ⟨hdlow, hdhigh⟩ := toNat_of_isContinuation hd
                refine ⟨[b, c, d], behind, rfl, ?_, rfl⟩
                rw [encodeChar_four (by omega) (by omega) (by omega) (by omega) (by omega)
                    (by omega), ofNat_eq (b := first) (by omega), ofNat_eq (b := b) (by omega),
                  ofNat_eq (b := c) (by omega), ofNat_eq (b := d) (by omega)]
              next => cases h
          next => cases h
      next => cases h
  next => cases h

theorem encodeChars_of_decodeFrom {index : Nat} {bytes : Bytes} {cs : List Char}
    (h : decodeFrom index 0 bytes = .ok cs) : encodeChars cs = bytes := by
  induction cs generalizing index bytes with
  | nil =>
      cases bytes with
      | nil => rfl
      | cons first rest =>
          rw [decodeFrom] at h
          split at h
          next => cases h
          next c n hstep =>
            cases hrest : decodeFrom (index + 1) (n - 1) rest <;> simp [hrest, Except.map] at h
  | cons c cs ih =>
      cases bytes with
      | nil => cases h
      | cons first rest =>
          rw [decodeFrom] at h
          split at h
          next => cases h
          next c' n hstep =>
            obtain ⟨tail, behind, rfl, hchar, rfl⟩ := encodeChar_of_step hstep
            rw [Nat.add_sub_cancel, decodeFrom_skip] at h
            cases hrest : decodeFrom (index + 1 + tail.length) 0 behind with
            | error fault => simp [hrest, Except.map] at h
            | ok cs' =>
                rw [hrest] at h
                obtain ⟨rfl, rfl⟩ := List.cons.inj (Except.ok.inj h)
                have hcs := ih hrest
                rw [encodeChars] at hcs ⊢
                rw [List.flatMap_cons, hchar, hcs]
                rfl

/-- Bytes that can be decoded are the only ones that spell their text. -/
theorem encode_of_decode {bytes : Bytes} {s : String} (h : decode bytes = .ok s) :
    encode s = bytes := by
  unfold decode at h
  cases hchars : decodeFrom 0 0 bytes with
  | error fault => simp [hchars, Except.map] at h
  | ok cs =>
      rw [hchars] at h
      obtain rfl : String.ofList cs = s := Except.ok.inj h
      unfold encode
      rw [String.toList_ofList]
      exact encodeChars_of_decodeFrom hchars

end Utf8

end StreamTrace
