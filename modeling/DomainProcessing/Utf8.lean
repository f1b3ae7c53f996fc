import Mathlib.Data.List.Basic

namespace Utf8

/-- The bytes that may come second after a lead byte, how many follow the lead in
all, and the bits of the lead. -/
structure Lead where
  low : Nat
  high : Nat
  follow : Nat
  bits : Nat

def lead (b : Nat) : Option Lead :=
  if b < 0x80 then some ⟨0x80, 0xbf, 0, b⟩
  else if b < 0xc2 then none
  else if b < 0xe0 then some ⟨0x80, 0xbf, 1, b - 0xc0⟩
  else if b < 0xf0 then
    some ⟨if b = 0xe0 then 0xa0 else 0x80, if b = 0xed then 0x9f else 0xbf, 2, b - 0xe0⟩
  else if b < 0xf5 then
    some ⟨if b = 0xf0 then 0x90 else 0x80, if b = 0xf4 then 0x8f else 0xbf, 3, b - 0xf0⟩
  else none

/-- The continuation bytes of a sequence, up to the first that is out of range. -/
def follow (low high : Nat) : Nat → Nat → List Nat → Option Nat × List Nat
  | 0, code, s => (some code, s)
  | _ + 1, _, [] => (none, [])
  | n + 1, code, b :: s =>
    if low ≤ b ∧ b ≤ high then follow 0x80 0xbf n (code * 64 + (b - 0x80)) s else (none, b :: s)

/-- One character, or `none` for the longest part of the text that begins one. -/
def decodeChar (b : Nat) (s : List Nat) : Option Nat × List Nat :=
  match lead b with
  | none => (none, s)
  | some l => follow l.low l.high l.follow l.bits s

theorem follow_length (low high n code : Nat) (s : List Nat) :
    (follow low high n code s).2.length ≤ s.length := by
  induction n generalizing low high code s with
  | zero => exact Nat.le_refl _
  | succ n ih =>
    cases s with
    | nil => exact Nat.le_refl _
    | cons b s =>
      unfold follow
      split
      next => exact Nat.le_succ_of_le (ih 0x80 0xbf _ s)
      next => exact Nat.le_refl _

theorem decodeChar_length (b : Nat) (s : List Nat) : (decodeChar b s).2.length ≤ s.length := by
  unfold decodeChar
  split
  next => exact Nat.le_refl _
  next => exact follow_length _ _ _ _ _

/-- U+FFFD -/
def replacement : Nat := 0xfffd

/-- `bytes.decode("utf-8", errors="replace")` -/
def decodeReplace : List Nat → List Char
  | [] => []
  | b :: s =>
    have : (decodeChar b s).2.length < s.length + 1 := Nat.lt_succ_of_le (decodeChar_length b s)
    Char.ofNat ((decodeChar b s).1.getD replacement) :: decodeReplace (decodeChar b s).2
  termination_by s => s.length

/-- `str.encode("utf-8")` of one character -/
def encodeChar (c : Char) : List Nat :=
  let n := c.toNat
  if n < 0x80 then [n]
  else if n < 0x800 then [0xc0 + n / 64, 0x80 + n % 64]
  else if n < 0x10000 then [0xe0 + n / 4096, 0x80 + n / 64 % 64, 0x80 + n % 64]
  else [0xf0 + n / 262144, 0x80 + n / 4096 % 64, 0x80 + n / 64 % 64, 0x80 + n % 64]

def encode (s : List Char) : List Nat := s.flatMap encodeChar

theorem toNat_range (c : Char) : c.toNat < 0xd800 ∨ (0xdfff < c.toNat ∧ c.toNat < 0x110000) := c.valid

theorem follow_cons {low high n code b : Nat} {s : List Nat} (inside : low ≤ b ∧ b ≤ high) :
    follow low high (n + 1) code (b :: s) = follow 0x80 0xbf n (code * 64 + (b - 0x80)) s := by
  rw [follow, if_pos inside]

theorem decodeChar_of_lead {b low high count bits : Nat}
    (h : lead b = some ⟨low, high, count, bits⟩) (s : List Nat) :
    decodeChar b s = follow low high count bits s := by
  rw [decodeChar, h]

theorem decodeChar_two {n : Nat} (low : 0x80 ≤ n) (high : n < 0x800) (s : List Nat) :
    decodeChar (0xc0 + n / 64) ((0x80 + n % 64) :: s) = (some n, s) := by
  have first : lead (0xc0 + n / 64) = some ⟨0x80, 0xbf, 1, n / 64⟩ := by
    simp only [lead]
    rw [if_neg (by omega), if_neg (by omega), if_pos (by omega), Nat.add_sub_cancel_left]
  have code : n / 64 * 64 + (0x80 + n % 64 - 0x80) = n := by omega
  rw [decodeChar_of_lead first, follow_cons (by omega), follow, code]

theorem decodeChar_three {n : Nat} (low : 0x800 ≤ n) (high : n < 0x10000)
    (valid : n < 0xd800 ∨ 0xdfff < n) (s : List Nat) :
    decodeChar (0xe0 + n / 4096) ((0x80 + n / 64 % 64) :: (0x80 + n % 64) :: s) = (some n, s) := by
  have first : lead (0xe0 + n / 4096) =
      some ⟨if 0xe0 + n / 4096 = 0xe0 then 0xa0 else 0x80,
        if 0xe0 + n / 4096 = 0xed then 0x9f else 0xbf, 2, n / 4096⟩ := by
    simp only [lead]
    rw [if_neg (by omega), if_neg (by omega), if_neg (by omega), if_pos (by omega),
      Nat.add_sub_cancel_left]
  have second : (if 0xe0 + n / 4096 = 0xe0 then 0xa0 else 0x80) ≤ 0x80 + n / 64 % 64 ∧
      0x80 + n / 64 % 64 ≤ if 0xe0 + n / 4096 = 0xed then 0x9f else 0xbf := by
    constructor
    · split <;> omega
    · split <;> omega
  have code : (n / 4096 * 64 + (0x80 + n / 64 % 64 - 0x80)) * 64 + (0x80 + n % 64 - 0x80) = n := by
    omega
  rw [decodeChar_of_lead first, follow_cons second, follow_cons (by omega), follow, code]

theorem decodeChar_four {n : Nat} (low : 0x10000 ≤ n) (high : n < 0x110000) (s : List Nat) :
    decodeChar (0xf0 + n / 262144)
      ((0x80 + n / 4096 % 64) :: (0x80 + n / 64 % 64) :: (0x80 + n % 64) :: s) = (some n, s) := by
  have first : lead (0xf0 + n / 262144) =
      some ⟨if 0xf0 + n / 262144 = 0xf0 then 0x90 else 0x80,
        if 0xf0 + n / 262144 = 0xf4 then 0x8f else 0xbf, 3, n / 262144⟩ := by
    simp only [lead]
    rw [if_neg (by omega), if_neg (by omega), if_neg (by omega), if_neg (by omega),
      if_pos (by omega), Nat.add_sub_cancel_left]
  have second : (if 0xf0 + n / 262144 = 0xf0 then 0x90 else 0x80) ≤ 0x80 + n / 4096 % 64 ∧
      0x80 + n / 4096 % 64 ≤ if 0xf0 + n / 262144 = 0xf4 then 0x8f else 0xbf := by
    constructor
    · split <;> omega
    · split <;> omega
  have code : ((n / 262144 * 64 + (0x80 + n / 4096 % 64 - 0x80)) * 64 +
      (0x80 + n / 64 % 64 - 0x80)) * 64 + (0x80 + n % 64 - 0x80) = n := by omega
  rw [decodeChar_of_lead first, follow_cons second, follow_cons (by omega), follow_cons (by omega),
    follow, code]

theorem decodeChar_encodeChar (c : Char) (s : List Nat) :
    ∃ b rest, encodeChar c ++ s = b :: rest ∧ decodeChar b rest = (some c.toNat, s) := by
  have valid := toNat_range c
  simp only [encodeChar]
  split
  next one =>
    refine ⟨c.toNat, s, rfl, ?_⟩
    have first : lead c.toNat = some ⟨0x80, 0xbf, 0, c.toNat⟩ := if_pos one
    rw [decodeChar_of_lead first, follow]
  next several =>
    split
    next two => exact ⟨_, _, rfl, decodeChar_two (by omega) two s⟩
    next more =>
      split
      next three => exact ⟨_, _, rfl, decodeChar_three (by omega) three (by omega) s⟩
      next four => exact ⟨_, _, rfl, decodeChar_four (by omega) (by omega) s⟩

/-- ASCII text is its own encoding. -/
theorem encode_ascii {s : List Char} (ascii : ∀ c ∈ s, c.toNat < 128) : encode s = s.map Char.toNat := by
  induction s with
  | nil => rfl
  | cons c s ih =>
    have first : encodeChar c = [c.toNat] := by
      unfold encodeChar
      exact if_pos (ascii c (List.mem_cons_self ..))
    have rest : encode s = s.map Char.toNat := ih fun d mem => ascii d (List.mem_cons_of_mem c mem)
    rw [encode, List.flatMap_cons, first]
    exact congrArg (c.toNat :: ·) rest

/-- Every code of the encoding is a byte. -/
theorem encode_lt {s : List Char} {b : Nat} (h : b ∈ encode s) : b < 256 := by
  obtain ⟨c, -, inside⟩ := List.mem_flatMap.mp h
  have valid := toNat_range c
  simp only [encodeChar] at inside
  split at inside
  next =>
    rw [List.mem_singleton.mp inside]
    omega
  next =>
    split at inside
    next => grind
    next => split at inside <;> grind

/-- The bytes of a text. -/
def bytes (s : List Char) : List UInt8 := (encode s).map UInt8.ofNat

theorem bytes_toNat (s : List Char) : (bytes s).map UInt8.toNat = encode s := by
  rw [bytes, List.map_map]
  conv_rhs => rw [← List.map_id (encode s)]
  refine List.map_congr_left fun b h => ?_
  exact UInt8.toNat_ofNat_of_lt' (encode_lt h)

theorem decodeReplace_encode (s : List Char) (rest : List Nat) :
    decodeReplace (encode s ++ rest) = s ++ decodeReplace rest := by
  induction s with
  | nil => rfl
  | cons c s ih =>
    obtain ⟨b, tail, bytes, decoded⟩ := decodeChar_encodeChar c (encode s ++ rest)
    rw [encode, List.flatMap_cons, List.append_assoc]
    change decodeReplace (encodeChar c ++ (encode s ++ rest)) = _
    rw [bytes, decodeReplace, decoded, ih]
    exact congrArg (· :: _) (Char.ofNat_toNat c)

end Utf8
