import ResumableUpload.Bytes.Base64

/-!
# Base64 texts read back

Every byte string is what its base64 text stands for (`decode_encode`). The text is read in groups
of four symbols, and no symbol is the sign of padding, so the groups are read as they were written.
-/

namespace ResumableUpload.Base64

/-- A symbol stands for its six bits, and is no padding. -/
theorem value?_symbol {n : Nat} (h : n < 64) : value? (symbol n) = some n := by
  have hall : ∀ n < 64, value? (symbol n) = some n := by decide
  exact hall n h

theorem symbol_ne_padding {n : Nat} (h : n < 64) : symbol n ≠ '=' := by
  have hall : ∀ n < 64, symbol n ≠ '=' := by decide
  exact hall n h

/-- A group without padding is read as three bytes. -/
theorem ofSymbols?_group {w x y z : Nat} (hw : w < 64) (hx : x < 64) (hy : y < 64) (hz : z < 64)
    {rest : List Char} {bytes : Bytes} (hrest : ofSymbols? rest = some bytes) :
    let n := w * 262144 + x * 4096 + y * 64 + z
    ofSymbols? (symbol w :: symbol x :: symbol y :: symbol z :: rest) =
      some (UInt8.ofNat (n / 65536) :: UInt8.ofNat (n / 256 % 256) :: UInt8.ofNat (n % 256) ::
        bytes) := by
  intro n
  rw [ofSymbols?]
  · simp only [value?_symbol hw, value?_symbol hx, value?_symbol hy, value?_symbol hz, hrest]
    rfl
  · intro _ hpadding
    exact absurd hpadding (symbol_ne_padding hz)
  · intro hpadding
    exact absurd hpadding (symbol_ne_padding hz)

/-- A group with one sign of padding is read as two bytes. -/
theorem ofSymbols?_pair {w x y : Nat} (hw : w < 64) (hx : x < 64) (hy : y < 64) :
    let n := w * 4096 + x * 64 + y
    n % 4 = 0 → ofSymbols? [symbol w, symbol x, symbol y, '='] =
      some [UInt8.ofNat (n / 1024), UInt8.ofNat (n / 4 % 256)] := by
  intro n hzero
  rw [ofSymbols?]
  · simp only [value?_symbol hw, value?_symbol hx, value?_symbol hy]
    exact if_pos hzero
  · exact fun hpadding => absurd hpadding (symbol_ne_padding hy)

/-- A group with two signs of padding is read as one byte. -/
theorem ofSymbols?_single {w x : Nat} (hw : w < 64) (hx : x < 64) :
    let n := w * 64 + x
    n % 16 = 0 → ofSymbols? [symbol w, symbol x, '=', '='] = some [UInt8.ofNat (n / 16)] := by
  intro n hzero
  rw [ofSymbols?]
  simp only [value?_symbol hw, value?_symbol hx]
  exact if_pos hzero

/-- The symbols of bytes are read as these bytes. -/
theorem ofSymbols?_symbols (bytes : Bytes) : ofSymbols? (symbols bytes) = some bytes := by
  fun_induction symbols bytes with
  | case1 a b c rest n ih =>
    have ha : a.toNat < 256 := a.toNat_lt
    have hb : b.toNat < 256 := b.toNat_lt
    have hc : c.toNat < 256 := c.toNat_lt
    have hsum : n / 262144 * 262144 + n / 4096 % 64 * 4096 + n / 64 % 64 * 64 + n % 64 = n := by
      omega
    have hgroup := ofSymbols?_group (show n / 262144 < 64 by omega)
      (show n / 4096 % 64 < 64 by omega) (show n / 64 % 64 < 64 by omega)
      (show n % 64 < 64 by omega) ih
    have hfirst : n / 65536 = a.toNat := by omega
    have hsecond : n / 256 % 256 = b.toNat := by omega
    have hthird : n % 256 = c.toNat := by omega
    simpa only [hsum, hfirst, hsecond, hthird, UInt8.ofNat_toNat] using hgroup
  | case2 a b n =>
    have ha : a.toNat < 256 := a.toNat_lt
    have hb : b.toNat < 256 := b.toNat_lt
    have hsum : n / 4096 * 4096 + n / 64 % 64 * 64 + n % 64 = n := by omega
    have hpair := ofSymbols?_pair (show n / 4096 < 64 by omega) (show n / 64 % 64 < 64 by omega)
      (show n % 64 < 64 by omega) (by omega)
    have hfirst : n / 1024 = a.toNat := by omega
    have hsecond : n / 4 % 256 = b.toNat := by omega
    simpa only [hsum, hfirst, hsecond, UInt8.ofNat_toNat] using hpair
  | case3 a n =>
    have ha : a.toNat < 256 := a.toNat_lt
    have hsum : n / 64 * 64 + n % 64 = n := by omega
    have hsingle := ofSymbols?_single (show n / 64 < 64 by omega) (show n % 64 < 64 by omega)
      (by omega)
    have hfirst : n / 16 = a.toNat := by omega
    simpa only [hsum, hfirst, UInt8.ofNat_toNat] using hsingle
  | case4 => rfl

/-- A byte string is what its base64 text stands for. -/
theorem decode_encode (bytes : Bytes) : decode (encode bytes) = some bytes := by
  rw [decode, encode, String.toList_ofList, ofSymbols?_symbols]

end ResumableUpload.Base64
