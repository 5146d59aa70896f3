import FullText.Text.Utf8

/-!
# UTF-8: decoding takes back what encoding writes

* `encode_eq`        the bytes of a text are those of its characters, one after another;
* `decodeFrom_tail`  an open sequence that gets the bytes it asks for gives its character;
* `decodeFrom_char`  the bytes of one character give that character;
* `decode_encode`    the bytes of a text give the text.

The ranges of the second byte are those that leave out overlong forms, surrogates and everything
above the last character, so a character never falls outside of them.
-/

namespace FullText.Text.Utf8

/-! ## the bytes of a text -/

theorem toList_loop (bs : ByteArray) (i : Nat) (r : List UInt8) :
    ByteArray.toList.loop bs i r = r.reverse ++ bs.data.toList.drop i := by
  fun_induction ByteArray.toList.loop bs i r with
  | case1 i r h ih =>
    have hi : i < bs.data.toList.length := h
    have hb : bs.get! i = bs.data.toList[i] := by
      show bs.data[i]! = _
      rw [getElem!_pos bs.data i h, Array.getElem_toList]
    rw [ih, List.drop_eq_getElem_cons hi, hb, List.reverse_cons, List.append_assoc]
    rfl
  | case2 i r h =>
    have hd : bs.data.toList.drop i = [] := List.drop_eq_nil_of_le (Nat.le_of_not_lt h)
    rw [hd, List.append_nil]

theorem encode_eq (s : String) : encode s = s.toList.flatMap String.utf8EncodeChar := by
  have h : s.toUTF8.data.toList = s.toList.flatMap String.utf8EncodeChar := by
    show s.toByteArray.data.toList = _
    rw [← String.utf8Encode_toList, List.utf8Encode, List.toList_data_toByteArray]
  show ByteArray.toList.loop s.toUTF8 0 [] = _
  rw [toList_loop, List.reverse_nil, List.nil_append, List.drop_zero, h]

/-! ## one byte -/

theorem toNat_ofNat {n : Nat} (h : n < 256) : (UInt8.ofNat n).toNat = n := by
  rw [UInt8.toNat_ofNat', Nat.mod_eq_of_lt h]

theorem decodeFrom_ascii (p : Nat) {b : UInt8} (bs : List UInt8) (h : b.toNat < 0x80) :
    decodeFrom p none (b :: bs) = (Char.ofNat b.toNat :: ·) <$> decodeFrom (p + 1) none bs := by
  rw [decodeFrom, if_pos h]

theorem decodeFrom_begin (p : Nat) {b : UInt8} {o : Open} (bs : List UInt8)
    (h : 0x80 ≤ b.toNat) (ho : begin? b = some o) :
    decodeFrom p none (b :: bs) = decodeFrom (p + 1) (some o) bs := by
  rw [decodeFrom, if_neg (Nat.not_lt.mpr h), ho]

theorem decodeFrom_extend (p : Nat) {b : UInt8} {o : Open} (bs : List UInt8)
    (h : o.least ≤ b.toNat ∧ b.toNat ≤ o.greatest) (hm : (o.extend b).more ≠ 0) :
    decodeFrom p (some o) (b :: bs) = decodeFrom (p + 1) (some (o.extend b)) bs := by
  rw [decodeFrom, if_pos h]
  exact if_neg hm

theorem decodeFrom_last (p : Nat) {b : UInt8} {o : Open} (bs : List UInt8)
    (h : o.least ≤ b.toNat ∧ b.toNat ≤ o.greatest) (hm : (o.extend b).more = 0) :
    decodeFrom p (some o) (b :: bs)
      = (Char.ofNat (o.extend b).bits :: ·) <$> decodeFrom (p + 1) none bs := by
  rw [decodeFrom, if_pos h]
  exact if_pos hm

/-! ## continuation bytes -/

/-- the continuation byte that holds the lowest six bits of `n` -/
def sixBits (n : Nat) : UInt8 := UInt8.ofNat (n % 0x40 + 0x80)

theorem toNat_sixBits (n : Nat) : (sixBits n).toNat = n % 0x40 + 0x80 := toNat_ofNat (by omega)

/-- the bits of a character after the continuation bytes of some numbers -/
def bitsAfter (bits : Nat) (ns : List Nat) : Nat := ns.foldl (fun m n => m * 64 + n % 0x40) bits

theorem bits_extend (o : Open) (n : Nat) : (o.extend (sixBits n)).bits = o.bits * 64 + n % 0x40 := by
  simp only [Open.extend, toNat_sixBits, Nat.add_sub_cancel]

/-- Only the first of the bytes has a range of its own, the others are all in range. -/
theorem decodeFrom_tail (ns : List Nat) (p : Nat) (o : Open) (n : Nat) (bs : List UInt8)
    (h : o.least ≤ n % 0x40 + 0x80 ∧ n % 0x40 + 0x80 ≤ o.greatest) (hm : o.more = ns.length + 1) :
    decodeFrom p (some o) (sixBits n :: (ns.map sixBits ++ bs))
      = (Char.ofNat (bitsAfter o.bits (n :: ns)) :: ·)
          <$> decodeFrom (p + 1 + ns.length) none bs := by
  rw [← toNat_sixBits] at h
  have he : bitsAfter o.bits (n :: ns) = bitsAfter (o.extend (sixBits n)).bits ns := by
    rw [bits_extend, bitsAfter, List.foldl_cons]
    rfl
  rw [he]
  induction ns generalizing p o n with
  | nil => exact decodeFrom_last p bs h (by simp [Open.extend, hm])
  | cons k ns ih =>
    have h1 : (o.extend (sixBits n)).more = ns.length + 1 := by simp [Open.extend, hm]
    have hk : 0x80 ≤ (sixBits k).toNat ∧ (sixBits k).toNat ≤ 0xBF := by
      rw [toNat_sixBits]
      omega
    have hp : p + 1 + (ns.length + 1) = p + 1 + 1 + ns.length := by omega
    have hb : bitsAfter (o.extend (sixBits n)).bits (k :: ns)
        = bitsAfter ((o.extend (sixBits n)).extend (sixBits k)).bits ns := by
      rw [bits_extend _ k, bitsAfter, List.foldl_cons]
      rfl
    rw [List.map_cons, List.cons_append, decodeFrom_extend p _ h (by omega),
      ih (p + 1) (o.extend (sixBits n)) k hk h1 hb, List.length_cons, hp, hb]

/-! ## first bytes -/

/-- the first of two bytes -/
theorem begin?_two {n : Nat} (h : 0x7F < n) (h' : n ≤ 0x7FF) :
    ∃ o, begin? (UInt8.ofNat (n / 64 % 0x20 + 0xC0)) = some o ∧ o.more = 1 ∧ o.bits = n / 64
      ∧ o.least ≤ n % 0x40 + 0x80 ∧ n % 0x40 + 0x80 ≤ o.greatest := by
  have hb : (UInt8.ofNat (n / 64 % 0x20 + 0xC0)).toNat = n / 64 % 0x20 + 0xC0 :=
    toNat_ofNat (by omega)
  simp only [begin?, hb]
  rw [if_pos (by omega)]
  exact ⟨_, rfl, rfl, by simp only; omega, by simp only; omega, by simp only; omega⟩

/-- The first of three bytes.  Without overlong forms the second byte is not too small behind the
    least one, and without surrogates it is not too large behind `0xED`. -/
theorem begin?_three {n : Nat} (h : 0x7FF < n) (h' : n ≤ 0xFFFF) (hs : n < 0xD800 ∨ 0xDFFF < n) :
    ∃ o, begin? (UInt8.ofNat (n / 4096 % 0x10 + 0xE0)) = some o ∧ o.more = 2 ∧ o.bits = n / 4096
      ∧ o.least ≤ n / 64 % 0x40 + 0x80 ∧ n / 64 % 0x40 + 0x80 ≤ o.greatest := by
  have hb : (UInt8.ofNat (n / 4096 % 0x10 + 0xE0)).toNat = n / 4096 % 0x10 + 0xE0 :=
    toNat_ofNat (by omega)
  simp only [begin?, hb]
  rw [if_neg (by omega)]
  by_cases h0 : n / 4096 % 0x10 + 0xE0 = 0xE0
  · rw [if_pos h0]
    exact ⟨_, rfl, rfl, by simp only; omega, by simp only; omega, by simp only; omega⟩
  rw [if_neg h0]
  by_cases hd : n / 4096 % 0x10 + 0xE0 = 0xED
  · rw [if_pos hd]
    exact ⟨_, rfl, rfl, by simp only; omega, by simp only; omega, by simp only; omega⟩
  rw [if_neg hd, if_pos (by omega)]
  exact ⟨_, rfl, rfl, by simp only; omega, by simp only; omega, by simp only; omega⟩

/-- The first of four bytes; the last character limits the second byte behind `0xF4`. -/
theorem begin?_four {n : Nat} (h : 0xFFFF < n) (h' : n < 0x110000) :
    ∃ o, begin? (UInt8.ofNat (n / 262144 % 0x08 + 0xF0)) = some o ∧ o.more = 3
      ∧ o.bits = n / 262144
      ∧ o.least ≤ n / 4096 % 0x40 + 0x80 ∧ n / 4096 % 0x40 + 0x80 ≤ o.greatest := by
  have hb : (UInt8.ofNat (n / 262144 % 0x08 + 0xF0)).toNat = n / 262144 % 0x08 + 0xF0 :=
    toNat_ofNat (by omega)
  simp only [begin?, hb]
  rw [if_neg (by omega), if_neg (by omega), if_neg (by omega), if_neg (by omega)]
  by_cases h0 : n / 262144 % 0x08 + 0xF0 = 0xF0
  · rw [if_pos h0]
    exact ⟨_, rfl, rfl, by simp only; omega, by simp only; omega, by simp only; omega⟩
  rw [if_neg h0]
  by_cases h4 : n / 262144 % 0x08 + 0xF0 = 0xF4
  · rw [if_pos h4]
    exact ⟨_, rfl, rfl, by simp only; omega, by simp only; omega, by simp only; omega⟩
  rw [if_neg h4, if_pos (by omega)]
  exact ⟨_, rfl, rfl, by simp only; omega, by simp only; omega, by simp only; omega⟩

/-! ## one character -/

/-- a first byte and the continuation bytes it asks for -/
theorem decodeFrom_sequence (p : Nat) {b : UInt8} {o : Open} (n : Nat) (ns : List Nat)
    (bs : List UInt8) (hb : 0x80 ≤ b.toNat) (ho : begin? b = some o) (hm : o.more = ns.length + 1)
    (h : o.least ≤ n % 0x40 + 0x80 ∧ n % 0x40 + 0x80 ≤ o.greatest) {c : Char}
    (hc : Char.ofNat (bitsAfter o.bits (n :: ns)) = c) :
    decodeFrom p none (b :: sixBits n :: (ns.map sixBits ++ bs))
      = (c :: ·) <$> decodeFrom (p + 1 + 1 + ns.length) none bs := by
  rw [decodeFrom_begin p _ hb ho, decodeFrom_tail ns _ o n bs h hm, hc]

theorem decodeFrom_char (p : Nat) (c : Char) (bs : List UInt8) :
    decodeFrom p none (String.utf8EncodeChar c ++ bs)
      = (c :: ·) <$> decodeFrom (p + (String.utf8EncodeChar c).length) none bs := by
  have hv : c.toNat < 0xD800 ∨ (0xDFFF < c.toNat ∧ c.toNat < 0x110000) := c.valid
  have hc : Char.ofNat c.toNat = c := Char.ofNat_toNat c
  unfold String.utf8EncodeChar
  generalize hn : c.val.toNat = n
  replace hn : c.toNat = n := hn
  rw [hn] at hv hc
  simp only
  split
  · have hb : (UInt8.ofNat n).toNat = n := toNat_ofNat (by omega)
    show decodeFrom p none (UInt8.ofNat n :: bs) = _
    rw [decodeFrom_ascii p bs (by omega), hb, hc]
    rfl
  split
  · obtain ⟨o, ho, hm, hbits, h⟩ := begin?_two (n := n) (by omega) (by omega)
    have he : bitsAfter o.bits [n] = n := by
      simp only [bitsAfter, List.foldl_cons, List.foldl_nil, hbits]
      omega
    exact decodeFrom_sequence p n [] bs (by rw [toNat_ofNat (by omega)]; omega) ho hm h
      (by rw [he, hc])
  split
  · obtain ⟨o, ho, hm, hbits, h⟩ := begin?_three (n := n) (by omega) (by omega) (by omega)
    have he : bitsAfter o.bits [n / 64, n] = n := by
      simp only [bitsAfter, List.foldl_cons, List.foldl_nil, hbits]
      omega
    exact decodeFrom_sequence p (n / 64) [n] bs (by rw [toNat_ofNat (by omega)]; omega) ho hm h
      (by rw [he, hc])
  · obtain ⟨o, ho, hm, hbits, h⟩ := begin?_four (n := n) (by omega) (by omega)
    have he : bitsAfter o.bits [n / 4096, n / 64, n] = n := by
      simp only [bitsAfter, List.foldl_cons, List.foldl_nil, hbits]
      omega
    exact decodeFrom_sequence p (n / 4096) [n / 64, n] bs (by rw [toNat_ofNat (by omega)]; omega)
      ho hm h (by rw [he, hc])

/-! ## a text -/

theorem decodeFrom_encode (p : Nat) (cs : List Char) :
    decodeFrom p none (cs.flatMap String.utf8EncodeChar) = .ok cs := by
  induction cs generalizing p with
  | nil => rfl
  | cons c cs ih =>
    rw [List.flatMap_cons, decodeFrom_char, ih]
    rfl

theorem decode_encode (s : String) : decode (encode s) = .ok s := by
  rw [decode, encode_eq, decodeFrom_encode]
  show Except.ok (String.ofList s.toList) = _
  rw [String.ofList_toList]

end FullText.Text.Utf8
