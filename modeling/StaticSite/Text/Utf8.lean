import StaticSite.Text

/-!
# UTF-8

Files hold bytes, everything else here is text.  Writing encodes characters in UTF-8.  Reading
splits bytes into units, each a well-formed sequence or a maximal ill-formed part of one; a
strict reading refuses the latter, a lenient reading puts one replacement character for each.
-/

namespace StaticSite.Utf8

/-- The bytes of a text. -/
def encode (text : Text) : List UInt8 :=
  text.flatMap String.utf8EncodeChar

/-- What a lead byte promises: how many bytes follow, the range of the first of them and the
bits that the lead byte contributes. -/
structure Lead where
  following : Nat
  low : UInt8
  high : UInt8
  bits : Nat

/-- The multi-byte forms.  The narrowed ranges rule out overlong forms, surrogates and code
points above `10FFFF`. -/
def lead? (byte : UInt8) : Option Lead :=
  if byte < 0xC2 then none
  else if byte < 0xE0 then some ⟨1, 0x80, 0xBF, byte.toNat - 0xC0⟩
  else if byte < 0xF0 then
    some ⟨2, if byte = 0xE0 then 0xA0 else 0x80, if byte = 0xED then 0x9F else 0xBF,
      byte.toNat - 0xE0⟩
  else if byte < 0xF5 then
    some ⟨3, if byte = 0xF0 then 0x90 else 0x80, if byte = 0xF4 then 0x8F else 0xBF,
      byte.toNat - 0xF0⟩
  else none

/-- Reads `following` more bytes of a character, the first of them between `low` and `high`.
A byte that does not fit ends the unit without a character and stays in the rest. -/
def continueUnit : Nat → UInt8 → UInt8 → Nat → List UInt8 → Option Char × List UInt8
  | 0, _, _, bits, rest => (some (Char.ofNat bits), rest)
  | _ + 1, _, _, _, [] => (none, [])
  | following + 1, low, high, bits, byte :: rest =>
      if low ≤ byte && byte ≤ high then
        continueUnit following 0x80 0xBF (bits * 64 + (byte.toNat - 0x80)) rest
      else (none, byte :: rest)

/-- The first unit of `byte :: rest`: its character if it is well formed, and what follows. -/
def nextUnit (byte : UInt8) (rest : List UInt8) : Option Char × List UInt8 :=
  if byte < 0x80 then (some (Char.ofNat byte.toNat), rest)
  else match lead? byte with
    | none => (none, rest)
    | some lead => continueUnit lead.following lead.low lead.high lead.bits rest

theorem length_continueUnit_le (following : Nat) (low high : UInt8) (bits : Nat)
    (bytes : List UInt8) :
    (continueUnit following low high bits bytes).2.length ≤ bytes.length := by
  induction bytes generalizing following low high bits with
  | nil => cases following <;> simp [continueUnit]
  | cons byte rest ih =>
      cases following with
      | zero => simp [continueUnit]
      | succ n =>
          unfold continueUnit
          split
          · exact Nat.le_trans (ih ..) (Nat.le_succ _)
          · simp

theorem length_nextUnit_le (byte : UInt8) (rest : List UInt8) :
    (nextUnit byte rest).2.length ≤ rest.length := by
  unfold nextUnit
  split
  · exact Nat.le_refl _
  · split
    · exact Nat.le_refl _
    · exact length_continueUnit_le ..

/-- All units of a byte sequence, `none` for each maximal ill-formed part. -/
def units : List UInt8 → List (Option Char)
  | [] => []
  | byte :: rest => (nextUnit byte rest).1 :: units (nextUnit byte rest).2
  termination_by bytes => bytes.length
  decreasing_by exact Nat.lt_succ_of_le (length_nextUnit_le byte rest)

/-- Strict reading. -/
def decode? (bytes : List UInt8) : Option Text :=
  (units bytes).mapM id

/-- Lenient reading: `U+FFFD` stands for each ill-formed part. -/
def decodeLossy (bytes : List UInt8) : Text :=
  (units bytes).map (·.getD '\uFFFD')

end StaticSite.Utf8
