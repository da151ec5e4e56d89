import Mathlib.Data.List.Basic
import StaticSite.Text.Utf8

/-!
# Texts in UTF-8

What is written in UTF-8 is well formed, and reading it strictly or leniently gives the text back.
-/

namespace StaticSite.Utf8

variable {n m v following bits : Nat} {rest : List UInt8}

/-! ## Bytes as numbers -/

theorem toNat_ofNat (small : n < 256) : (UInt8.ofNat n).toNat = n := by
  rw [UInt8.toNat_ofNat']
  exact Nat.mod_eq_of_lt small

theorem ofNat_lt_iff (small : n < 256) (small' : m < 256) :
    UInt8.ofNat n < UInt8.ofNat m ↔ n < m := by
  rw [UInt8.lt_iff_toNat_lt, toNat_ofNat small, toNat_ofNat small']

theorem ofNat_le_iff (small : n < 256) (small' : m < 256) :
    UInt8.ofNat n ≤ UInt8.ofNat m ↔ n ≤ m := by
  rw [UInt8.le_iff_toNat_le, toNat_ofNat small, toNat_ofNat small']

theorem ofNat_eq_iff (small : n < 256) (small' : m < 256) :
    UInt8.ofNat n = UInt8.ofNat m ↔ n = m := by
  rw [← UInt8.toNat_inj, toNat_ofNat small, toNat_ofNat small']

theorem lead?_ofNat (small : n < 256) : lead? (UInt8.ofNat n)
    = if n < 194 then none
      else if n < 224 then some ⟨1, UInt8.ofNat 128, UInt8.ofNat 191, n - 192⟩
      else if n < 240 then
        some ⟨2, UInt8.ofNat (if n = 224 then 160 else 128),
          UInt8.ofNat (if n = 237 then 159 else 191), n - 224⟩
      else if n < 245 then
        some ⟨3, UInt8.ofNat (if n = 240 then 144 else 128),
          UInt8.ofNat (if n = 244 then 143 else 191), n - 240⟩
      else none := by
  have below : ∀ m < 256, (UInt8.ofNat n < UInt8.ofNat m) = (n < m) :=
    fun m small' => propext (ofNat_lt_iff small small')
  have equal : ∀ m < 256, (UInt8.ofNat n = UInt8.ofNat m) = (n = m) :=
    fun m small' => propext (ofNat_eq_iff small small')
  simp only [lead?, toNat_ofNat small, apply_ite UInt8.ofNat]
  simp only [← below 194 (by decide), ← below 224 (by decide), ← below 240 (by decide),
    ← below 245 (by decide), ← equal 224 (by decide), ← equal 237 (by decide),
    ← equal 240 (by decide), ← equal 244 (by decide)]
  rfl

theorem nextUnit_ofNat (small : n < 256) : nextUnit (UInt8.ofNat n) rest
    = if n < 128 then (some (Char.ofNat n), rest)
      else match lead? (UInt8.ofNat n) with
        | none => (none, rest)
        | some lead => continueUnit lead.following lead.low lead.high lead.bits rest := by
  have ascii : UInt8.ofNat n < 0x80 ↔ n < 128 := ofNat_lt_iff small (by decide)
  rw [nextUnit, toNat_ofNat small]
  cases lead? (UInt8.ofNat n) <;> simp only [ascii]

theorem continueUnit_ofNat {low high : Nat} (small : high < 256) (above : low ≤ n)
    (below : n ≤ high) :
    continueUnit (following + 1) (UInt8.ofNat low) (UInt8.ofNat high) bits (UInt8.ofNat n :: rest)
      = continueUnit following (UInt8.ofNat 128) (UInt8.ofNat 191) (bits * 64 + (n - 128))
          rest := by
  have above' := (ofNat_le_iff (n := low) (m := n) (by omega) (by omega)).2 above
  have below' := (ofNat_le_iff (by omega) small).2 below
  simp [continueUnit, above', below', toNat_ofNat (n := n) (by omega)]

/-! ## One character -/

theorem nextUnit_one (small : v ≤ 127) :
    nextUnit (UInt8.ofNat v) rest = (some (Char.ofNat v), rest) := by
  rw [nextUnit_ofNat (by omega), if_pos (by omega)]

theorem nextUnit_two (large : 127 < v) (small : v ≤ 2047) :
    nextUnit (UInt8.ofNat (v / 64 % 32 + 192)) (UInt8.ofNat (v % 64 + 128) :: rest)
      = (some (Char.ofNat v), rest) := by
  have whole : (v / 64 % 32 + 192 - 192) * 64 + (v % 64 + 128 - 128) = v := by omega
  rw [nextUnit_ofNat (by omega), if_neg (by omega), lead?_ofNat (by omega), if_neg (by omega),
    if_pos (by omega)]
  dsimp only
  rw [continueUnit_ofNat (by omega) (by omega) (by omega), whole, continueUnit]

/-- The bounds of the second byte leave out the surrogates and what two bytes can write. -/
theorem nextUnit_three (large : 2047 < v) (small : v ≤ 65535)
    (valid : v < 55296 ∨ 57343 < v) :
    nextUnit (UInt8.ofNat (v / 4096 % 16 + 224))
        (UInt8.ofNat (v / 64 % 64 + 128) :: UInt8.ofNat (v % 64 + 128) :: rest)
      = (some (Char.ofNat v), rest) := by
  have whole : ((v / 4096 % 16 + 224 - 224) * 64 + (v / 64 % 64 + 128 - 128)) * 64
      + (v % 64 + 128 - 128) = v := by omega
  have above : (if v / 4096 % 16 + 224 = 224 then 160 else 128) ≤ v / 64 % 64 + 128 := by
    split <;> omega
  have below : v / 64 % 64 + 128 ≤ if v / 4096 % 16 + 224 = 237 then 159 else 191 := by
    split <;> omega
  rw [nextUnit_ofNat (by omega), if_neg (by omega), lead?_ofNat (by omega), if_neg (by omega),
    if_neg (by omega), if_pos (by omega)]
  dsimp only
  rw [continueUnit_ofNat (by split <;> omega) above below,
    continueUnit_ofNat (by omega) (by omega) (by omega), whole, continueUnit]

/-- The bounds of the second byte leave out what three bytes can write and what is no character. -/
theorem nextUnit_four (large : 65535 < v) (small : v < 1114112) :
    nextUnit (UInt8.ofNat (v / 262144 % 8 + 240))
        (UInt8.ofNat (v / 4096 % 64 + 128) :: UInt8.ofNat (v / 64 % 64 + 128) ::
          UInt8.ofNat (v % 64 + 128) :: rest)
      = (some (Char.ofNat v), rest) := by
  have whole : (((v / 262144 % 8 + 240 - 240) * 64 + (v / 4096 % 64 + 128 - 128)) * 64
      + (v / 64 % 64 + 128 - 128)) * 64 + (v % 64 + 128 - 128) = v := by omega
  have above : (if v / 262144 % 8 + 240 = 240 then 144 else 128) ≤ v / 4096 % 64 + 128 := by
    split <;> omega
  have below : v / 4096 % 64 + 128 ≤ if v / 262144 % 8 + 240 = 244 then 143 else 191 := by
    split <;> omega
  rw [nextUnit_ofNat (by omega), if_neg (by omega), lead?_ofNat (by omega), if_neg (by omega),
    if_neg (by omega), if_neg (by omega), if_pos (by omega)]
  dsimp only
  rw [continueUnit_ofNat (by split <;> omega) above below,
    continueUnit_ofNat (by omega) (by omega) (by omega),
    continueUnit_ofNat (by omega) (by omega) (by omega), whole, continueUnit]

/-- The bytes of a character are one unit, whatever follows them. -/
theorem nextUnit_encodeChar (c : Char) (rest : List UInt8) :
    ∃ first more, String.utf8EncodeChar c = first :: more ∧
      nextUnit first (more ++ rest) = (some c, rest) := by
  have valid : c.toNat < 55296 ∨ 57343 < c.toNat ∧ c.toNat < 1114112 := c.valid
  have same : Char.ofNat c.toNat = c := Char.ofNat_toNat c
  have encoded : String.utf8EncodeChar c = _ := rfl
  unfold String.utf8EncodeChar at encoded
  rw [show c.val.toNat = c.toNat from rfl] at encoded
  by_cases one : c.toNat ≤ 127
  · exact ⟨_, _, encoded.trans (if_pos one), by rw [List.nil_append, nextUnit_one one, same]⟩
  · by_cases two : c.toNat ≤ 2047
    · refine ⟨_, _, encoded.trans ((if_neg one).trans (if_pos two)), ?_⟩
      rw [List.singleton_append, nextUnit_two (by omega) two, same]
    · by_cases three : c.toNat ≤ 65535
      · refine ⟨_, _, encoded.trans ((if_neg one).trans ((if_neg two).trans (if_pos three))), ?_⟩
        rw [List.cons_append, List.singleton_append,
          nextUnit_three (by omega) three (by omega), same]
      · refine ⟨_, _, encoded.trans ((if_neg one).trans ((if_neg two).trans (if_neg three))), ?_⟩
        rw [List.cons_append, List.cons_append, List.singleton_append,
          nextUnit_four (by omega) (by omega), same]

/-! ## Texts -/

theorem units_encode (text : Text) : units (encode text) = text.map some := by
  induction text with
  | nil => rw [encode, List.flatMap_nil, units, List.map_nil]
  | cons c text ih =>
    obtain ⟨first, more, encoded, next⟩ := nextUnit_encodeChar c (encode text)
    rw [encode, List.flatMap_cons, encoded, List.cons_append, units, ← encode, next, ih,
      List.map_cons]

@[simp] theorem decode?_encode (text : Text) : decode? (encode text) = some text := by
  rw [decode?, units_encode]
  induction text with
  | nil => rfl
  | cons c text ih =>
    rw [List.map_cons, List.mapM_cons, ih]
    rfl

theorem encode_injective : Function.Injective encode := fun text other same =>
  Option.some.inj (by rw [← decode?_encode text, same, decode?_encode])

@[simp] theorem decodeLossy_encode (text : Text) : decodeLossy (encode text) = text := by
  rw [decodeLossy, units_encode, List.map_map]
  exact List.map_id' text

end StaticSite.Utf8
