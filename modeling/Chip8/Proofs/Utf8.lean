import Chip8.Text.Utf8

/-!
# Chip8.Proofs.Utf8

Reading UTF-8 is the inverse of writing it.

A character that has begun stands for the code points it can still become: they agree with the bits
collected so far, and the next byte of their encoding is within the bounds (`Pending.Admits`). Two
things are shown of it. Every code point it stands for is a character, and its encoding starts with
the bytes taken so far (`Pending.Begins`): this holds when a character begins and is kept by each
byte, so what has been read is an encoding. And the bytes of an encoding are taken one after the
other, so every encoding is read. `decode_eq_ok_iff` is the two together.
-/

namespace Chip8.Utf8

-- Powers are the core library's, whatever other powers are in scope.
attribute [local instance (high)] instPowNat

variable {p : Pending} {b : UInt8} {before bytes : List UInt8} {chars : List Char} {k v : Nat}

/-- The last `k` bytes in the encoding of a code point, with six of its bits in each. -/
def continuation (v : Nat) : (k : Nat) → List UInt8
  | 0 => []
  | k + 1 => UInt8.ofNat (v / 64 ^ k % 64 + 0x80) :: continuation v k

theorem toNat_ofNat {n : Nat} (h : n < 256) : (UInt8.ofNat n).toNat = n :=
  UInt8.toNat_ofNat_of_lt' h

/-! ### Encodings of one character -/

section

variable {c : Char}

theorem utf8EncodeChar_one (h : c.toNat ≤ 0x7F) :
    String.utf8EncodeChar c = [UInt8.ofNat c.toNat] := by
  rw [String.utf8EncodeChar]
  exact if_pos h

theorem utf8EncodeChar_two (h : 0x7F < c.toNat) (h' : c.toNat ≤ 0x7FF) :
    String.utf8EncodeChar c =
      UInt8.ofNat (c.toNat / 64 + 0xC0) :: continuation c.toNat 1 := by
  have hlead : c.toNat / 64 % 32 = c.toNat / 64 := Nat.mod_eq_of_lt (by omega)
  unfold Char.toNat at *
  rw [String.utf8EncodeChar, if_neg (by omega), if_pos h', hlead]
  simp [continuation]

theorem utf8EncodeChar_three (h : 0x7FF < c.toNat) (h' : c.toNat ≤ 0xFFFF) :
    String.utf8EncodeChar c =
      UInt8.ofNat (c.toNat / 4096 + 0xE0) :: continuation c.toNat 2 := by
  have hlead : c.toNat / 4096 % 16 = c.toNat / 4096 := Nat.mod_eq_of_lt (by omega)
  unfold Char.toNat at *
  rw [String.utf8EncodeChar, if_neg (by omega), if_neg (by omega), if_pos h', hlead]
  simp [continuation]

theorem utf8EncodeChar_four (h : 0xFFFF < c.toNat) :
    String.utf8EncodeChar c =
      UInt8.ofNat (c.toNat / 262144 + 0xF0) :: continuation c.toNat 3 := by
  have hlead : c.toNat / 262144 % 8 = c.toNat / 262144 := by
    have hvalid : c.toNat < 0xD800 ∨ 0xDFFF < c.toNat ∧ c.toNat < 0x110000 := c.valid
    omega
  unfold Char.toNat at *
  rw [String.utf8EncodeChar, if_neg (by omega), if_neg (by omega), if_neg (by omega), hlead]
  simp [continuation]

/-- The code points of characters are those that are no surrogates and not too large. -/
theorem exists_char (h : v < 0xD800 ∨ 0xDFFF < v ∧ v < 0x110000) : ∃ c : Char, c.toNat = v :=
  ⟨Char.ofNatAux v h, rfl⟩

end

/-! ### Characters that have begun -/

/-- The code point can become of the character: it agrees with the bits collected so far, and its
next byte is within the bounds. -/
structure Pending.Admits (p : Pending) (v : Nat) : Prop where
  bits : v / 64 ^ p.owed = p.bits
  least : p.least ≤ v / 64 ^ (p.owed - 1) % 64 + 0x80
  greatest : v / 64 ^ (p.owed - 1) % 64 + 0x80 ≤ p.greatest

/-- A character has begun with these bytes: each code point that can become of it is a character
whose encoding starts with them, and goes on with continuation bytes. -/
structure Pending.Begins (p : Pending) (before : List UInt8) : Prop where
  owed : 0 < p.owed
  least : 0x80 ≤ p.least
  greatest : p.greatest ≤ 0xBF
  completes : ∀ v, p.Admits v →
    ∃ c : Char, c.toNat = v ∧ String.utf8EncodeChar c = before ++ continuation v p.owed

/-- What becomes of a pending character with one more byte. -/
def Pending.take (p : Pending) (b : UInt8) : Pending :=
  ⟨p.lead, p.taken + 1, p.owed - 1, 0x80, 0xBF, p.bits * 64 + b.toNat % 64⟩

/-- A byte within the bounds is the next one of the code points that have its bits. -/
theorem Pending.Begins.admits (h : p.Begins before)
    (hb : p.least ≤ b.toNat ∧ b.toNat ≤ p.greatest) (howed : p.owed = k + 1)
    (hv : v / 64 ^ k = p.bits * 64 + b.toNat % 64) :
    p.Admits v ∧ continuation v p.owed = b :: continuation v k := by
  have hleast := h.least
  have hgreatest := h.greatest
  have hnext : v / 64 ^ k % 64 + 0x80 = b.toNat := by omega
  refine ⟨⟨?_, ?_, ?_⟩, ?_⟩
  · rw [howed, Nat.pow_succ, ← Nat.div_div_eq_div_mul]
    omega
  · rw [howed, Nat.add_sub_cancel]
    omega
  · rw [howed, Nat.add_sub_cancel]
    omega
  · rw [howed, continuation, hnext, UInt8.ofNat_toNat]

theorem Pending.Begins.take (h : p.Begins before)
    (hb : p.least ≤ b.toNat ∧ b.toNat ≤ p.greatest) (howed : 1 < p.owed) :
    (p.take b).Begins (before ++ [b]) where
  owed := Nat.sub_pos_of_lt howed
  least := Nat.le_refl _
  greatest := Nat.le_refl _
  completes v hv := by
    obtain ⟨hadmits, htail⟩ := h.admits hb (by omega : p.owed = (p.owed - 1) + 1) hv.bits
    obtain ⟨c, hc, hencode⟩ := h.completes v hadmits
    refine ⟨c, hc, ?_⟩
    rw [hencode, htail, List.append_assoc]
    rfl

/-- The last byte completes a character. -/
theorem Pending.Begins.complete (h : p.Begins before)
    (hb : p.least ≤ b.toNat ∧ b.toNat ≤ p.greatest) (howed : p.owed = 1) :
    String.utf8EncodeChar (Char.ofNat (p.bits * 64 + b.toNat % 64)) = before ++ [b] := by
  obtain ⟨hadmits, htail⟩ := h.admits hb (k := 0) howed (Nat.div_one _)
  obtain ⟨c, hc, hencode⟩ := h.completes _ hadmits
  rw [← hc, Char.ofNat_toNat, hencode, htail]
  rfl

/-! ### Lead bytes -/

theorem begins_two (h : 0xC2 ≤ b.toNat) (h' : b.toNat < 0xE0) :
    Pending.Begins ⟨b, 1, 1, 0x80, 0xBF, b.toNat % 32⟩ [b] := by
  refine ⟨Nat.one_pos, Nat.le_refl _, Nat.le_refl _, ?_⟩
  intro v hv
  have hbits := hv.bits
  dsimp only at hbits
  obtain ⟨c, rfl⟩ := exists_char (v := v) (by omega)
  have hlead : c.toNat / 64 + 0xC0 = b.toNat := by omega
  refine ⟨c, rfl, ?_⟩
  rw [utf8EncodeChar_two (by omega) (by omega), hlead, UInt8.ofNat_toNat]
  rfl

theorem begins_three (h : 0xE0 ≤ b.toNat) (h' : b.toNat < 0xF0) :
    Pending.Begins ⟨b, 1, 2, if b.toNat = 0xE0 then 0xA0 else 0x80,
      if b.toNat = 0xED then 0x9F else 0xBF, b.toNat % 16⟩ [b] := by
  refine ⟨Nat.succ_pos _, ?_, ?_, ?_⟩
  · dsimp only
    split <;> omega
  · dsimp only
    split <;> omega
  · intro v hv
    obtain ⟨hbits, hleast, hgreatest⟩ := hv
    dsimp only at hbits hleast hgreatest
    -- The bounds keep out what two bytes would do for, and the surrogates.
    have hrange : 0x7FF < v ∧ v ≤ 0xFFFF ∧ (v < 0xD800 ∨ 0xDFFF < v) := by
      split at hleast <;> split at hgreatest <;> omega
    obtain ⟨c, rfl⟩ := exists_char (v := v) (by omega)
    have hlead : c.toNat / 4096 + 0xE0 = b.toNat := by omega
    refine ⟨c, rfl, ?_⟩
    rw [utf8EncodeChar_three hrange.1 hrange.2.1, hlead, UInt8.ofNat_toNat]
    rfl

theorem begins_four (h : 0xF0 ≤ b.toNat) (h' : b.toNat ≤ 0xF4) :
    Pending.Begins ⟨b, 1, 3, if b.toNat = 0xF0 then 0x90 else 0x80,
      if b.toNat = 0xF4 then 0x8F else 0xBF, b.toNat % 8⟩ [b] := by
  refine ⟨Nat.succ_pos _, ?_, ?_, ?_⟩
  · dsimp only
    split <;> omega
  · dsimp only
    split <;> omega
  · intro v hv
    obtain ⟨hbits, hleast, hgreatest⟩ := hv
    dsimp only at hbits hleast hgreatest
    -- They keep out what three bytes would do for, and what is beyond the last code point.
    have hrange : 0xFFFF < v ∧ v < 0x110000 := by
      split at hleast <;> split at hgreatest <;> omega
    obtain ⟨c, rfl⟩ := exists_char (v := v) (by omega)
    have hlead : c.toNat / 262144 + 0xF0 = b.toNat := by omega
    refine ⟨c, rfl, ?_⟩
    rw [utf8EncodeChar_four hrange.1, hlead, UInt8.ofNat_toNat]
    rfl

/-- **The character that a lead byte begins** has begun with it. -/
theorem begins_of_begin? (h : begin? b = some p) : p.Begins [b] := by
  unfold begin? at h
  dsimp only at h
  split at h
  · cases h
  · split at h
    · cases h
      exact begins_two (by omega) (by omega)
    · split at h
      · cases h
        exact begins_three (by omega) (by omega)
      · cases h
        exact begins_four (by omega) (by omega)

theorem begin?_two (h : 0xC2 ≤ b.toNat) (h' : b.toNat < 0xE0) :
    begin? b = some ⟨b, 1, 1, 0x80, 0xBF, b.toNat % 32⟩ := by
  unfold begin?
  dsimp only
  rw [if_neg (by omega), if_pos h']

theorem begin?_three (h : 0xE0 ≤ b.toNat) (h' : b.toNat < 0xF0) :
    begin? b = some ⟨b, 1, 2, if b.toNat = 0xE0 then 0xA0 else 0x80,
      if b.toNat = 0xED then 0x9F else 0xBF, b.toNat % 16⟩ := by
  unfold begin?
  dsimp only
  rw [if_neg (by omega), if_neg (by omega), if_pos h']

theorem begin?_four (h : 0xF0 ≤ b.toNat) (h' : b.toNat ≤ 0xF4) :
    begin? b = some ⟨b, 1, 3, if b.toNat = 0xF0 then 0x90 else 0x80,
      if b.toNat = 0xF4 then 0x8F else 0xBF, b.toNat % 8⟩ := by
  unfold begin?
  dsimp only
  rw [if_neg (by omega), if_neg (by omega), if_neg (by omega)]

/-- **The encoding of a character** of several bytes begins it, and then goes on with the bytes it
owes. -/
theorem exists_begin? {c : Char} (h : 0x7F < c.toNat) :
    ∃ b p, begin? b = some p ∧ 0x80 ≤ b.toNat ∧ p.Admits c.toNat ∧
      String.utf8EncodeChar c = b :: continuation c.toNat p.owed := by
  have hvalid : c.toNat < 0xD800 ∨ 0xDFFF < c.toNat ∧ c.toNat < 0x110000 := c.valid
  by_cases htwo : c.toNat ≤ 0x7FF
  · have hlead : (UInt8.ofNat (c.toNat / 64 + 0xC0)).toNat = c.toNat / 64 + 0xC0 :=
      toNat_ofNat (by omega)
    refine ⟨_, _, begin?_two (by omega) (by omega), by omega, ⟨?_, ?_, ?_⟩,
      utf8EncodeChar_two h htwo⟩
    · dsimp only
      omega
    · dsimp only
      omega
    · dsimp only
      omega
  · by_cases hthree : c.toNat ≤ 0xFFFF
    · have hlead : (UInt8.ofNat (c.toNat / 4096 + 0xE0)).toNat = c.toNat / 4096 + 0xE0 :=
        toNat_ofNat (by omega)
      refine ⟨_, _, begin?_three (by omega) (by omega), by omega, ⟨?_, ?_, ?_⟩,
        utf8EncodeChar_three (by omega) hthree⟩
      · dsimp only
        omega
      · dsimp only
        split <;> omega
      · dsimp only
        split <;> omega
    · have hlead : (UInt8.ofNat (c.toNat / 262144 + 0xF0)).toNat = c.toNat / 262144 + 0xF0 :=
        toNat_ofNat (by omega)
      refine ⟨_, _, begin?_four (by omega) (by omega), by omega, ⟨?_, ?_, ?_⟩,
        utf8EncodeChar_four (by omega)⟩
      · dsimp only
        omega
      · dsimp only
        split <;> omega
      · dsimp only
        split <;> omega

/-! ### Reading -/

/-- The bytes that have been taken of the character that is being read. -/
inductive Taken : List UInt8 → Option Pending → Prop
  | none : Taken [] none
  | some {p : Pending} {before : List UInt8} (h : p.Begins before) : Taken before (some p)

/-- **What is read is an encoding.** -/
theorem flatMap_of_read_eq_ok {pos : Nat} {pending? : Option Pending} {done : List Char}
    (hbefore : Taken before pending?) (h : read pos pending? done bytes = .ok chars) :
    chars.flatMap String.utf8EncodeChar =
      done.reverse.flatMap String.utf8EncodeChar ++ (before ++ bytes) := by
  -- Between the characters that are done and the bytes to come lies the one that has begun.
  induction bytes generalizing pos pending? done before with
  | nil =>
      cases hbefore with
      | none =>
          cases h
          simp
      | some hbegins => cases h
  | cons b bytes ih =>
      cases hbefore with
      | none =>
          simp only [read] at h
          split at h
          · obtain ⟨c, hc⟩ := exists_char (v := b.toNat) (by omega)
            have hencode : String.utf8EncodeChar c = [b] := by
              rw [utf8EncodeChar_one (by omega), hc, UInt8.ofNat_toNat]
            rw [← hc, Char.ofNat_toNat] at h
            rw [ih .none h]
            simp [hencode]
          · split at h
            · cases h
            · rename_i p hp
              rw [ih (.some (begins_of_begin? hp)) h]
              simp
      | some hbegins =>
          simp only [read] at h
          split at h
          · rename_i hb
            have howed := hbegins.owed
            split at h
            · have hencode := hbegins.complete hb (by omega)
              rw [ih .none h]
              simp [hencode]
            · rw [ih (.some (hbegins.take hb (by omega))) h]
              simp
          · cases h

/-- The next byte of a code point that a character can become is within the bounds, and brings six
more of its bits. -/
theorem Pending.Admits.next (h : p.Admits v) (howed : p.owed = k + 1) :
    (p.least ≤ v / 64 ^ k % 64 + 0x80 ∧ v / 64 ^ k % 64 + 0x80 ≤ p.greatest) ∧
      p.bits * 64 + (v / 64 ^ k % 64 + 0x80) % 64 = v / 64 ^ k := by
  obtain ⟨hbits, hleast, hgreatest⟩ := h
  rw [howed] at hbits hleast hgreatest
  rw [Nat.add_sub_cancel] at hleast hgreatest
  rw [Nat.pow_succ, ← Nat.div_div_eq_div_mul] at hbits
  refine ⟨⟨hleast, hgreatest⟩, ?_⟩
  omega

/-- The bytes that a character owes are taken. -/
theorem read_continuation {c : Char} (hadmits : p.Admits c.toNat) (howed : p.owed = k + 1)
    (pos : Nat) (done : List Char) (bytes : List UInt8) :
    ∃ pos', read pos (some p) done (continuation c.toNat (k + 1) ++ bytes) =
      read pos' none (c :: done) bytes := by
  -- Each byte leaves a character that owes one less and still admits the code point.
  induction k generalizing p pos with
  | zero =>
      obtain ⟨hbounds, hbits⟩ := hadmits.next howed
      rw [Nat.pow_zero, Nat.div_one] at hbounds hbits
      refine ⟨pos + 1, ?_⟩
      rw [continuation, Nat.pow_zero, Nat.div_one, List.cons_append, read,
        toNat_ofNat (by omega)]
      dsimp only
      rw [if_pos hbounds, if_pos (by omega), hbits, Char.ofNat_toNat]
      rfl
  | succ k ih =>
      obtain ⟨hbounds, hbits⟩ := hadmits.next howed
      rw [continuation, List.cons_append, read, toNat_ofNat (by omega)]
      dsimp only
      rw [if_pos hbounds, if_neg (by omega), hbits]
      have hbyte : c.toNat / 64 ^ k % 64 < 64 := Nat.mod_lt _ (by decide)
      refine ih ⟨?_, ?_, ?_⟩ (congrArg (· - 1) howed) (pos + 1)
      · dsimp only
        rw [howed, Nat.add_sub_cancel]
      · dsimp only
        omega
      · dsimp only
        rw [howed, Nat.add_sub_cancel, Nat.add_sub_cancel]
        omega

/-- **Every encoding is read.** -/
theorem read_flatMap (chars : List Char) (pos : Nat) (done : List Char) :
    read pos none done (chars.flatMap String.utf8EncodeChar) = .ok (done.reverse ++ chars) := by
  induction chars generalizing pos done with
  | nil => simp [read]
  | cons c chars ih =>
      rw [List.flatMap_cons]
      by_cases hone : c.toNat ≤ 0x7F
      · have hbyte : (UInt8.ofNat c.toNat).toNat = c.toNat :=
          toNat_ofNat (by omega)
        rw [utf8EncodeChar_one hone, List.singleton_append, read, hbyte, if_pos (by omega),
          Char.ofNat_toNat, ih]
        simp
      · obtain ⟨b, p, hbegin, hb, hadmits, hencode⟩ := exists_begin? (Nat.lt_of_not_le hone)
        have howed := (begins_of_begin? hbegin).owed
        obtain ⟨pos', htaken⟩ := read_continuation hadmits (by omega : p.owed = p.owed - 1 + 1)
          (pos + 1) done (chars.flatMap String.utf8EncodeChar)
        rw [Nat.sub_add_cancel howed] at htaken
        rw [hencode, List.cons_append, read, if_neg (by omega), hbegin]
        dsimp only
        rw [htaken, ih]
        simp

/-- **Bytes are the encoding of what is read from them,** and what is no encoding is not read. -/
theorem decode_eq_ok_iff :
    decode bytes = .ok chars ↔ bytes = chars.flatMap String.utf8EncodeChar := by
  constructor
  · intro h
    rw [flatMap_of_read_eq_ok .none h]
    rfl
  · rintro rfl
    exact read_flatMap chars 0 []

end Chip8.Utf8
