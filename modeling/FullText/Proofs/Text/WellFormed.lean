import FullText.Proofs.Outcome
import FullText.Proofs.Text.Utf8

/-!
# UTF-8: only the bytes of a text decode

* `Valid bs`                 `bs` are the bytes of some text;
* `encodeChar_one`, …        the bytes of the character with a given number;
* `Begins`                   what a first byte asks for;
* `Begins.encodeChar_eq`     a sequence that gives it what it asks for is the bytes of its character;
* `decode_eq_ok_iff`         bytes decode to a text if and only if they are the bytes of that text.

The decoder rules out overlong forms, surrogates and what lies above the last character by the range
of the second byte alone.
-/

namespace FullText.Text.Utf8

/-- the bytes are those of some text -/
def Valid (bs : List UInt8) : Prop := ∃ s, encode s = bs

/-! ## the bytes of a character -/

theorem eq_ofNat {b : UInt8} {n : Nat} (h : b.toNat = n) : UInt8.ofNat n = b := by
  rw [← h, UInt8.ofNat_toNat]

theorem eq_sixBits {b : UInt8} {n : Nat} (h : b.toNat = n % 0x40 + 0x80) : sixBits n = b :=
  eq_ofNat h

/-- the number of a character, unless it is that of a surrogate or too large -/
theorem val_ofNat {n : Nat} (h : n < 0xD800 ∨ 0xDFFF < n ∧ n < 0x110000) :
    (Char.ofNat n).val.toNat = n := by
  have hv : n.isValidChar := h
  rw [Char.ofNat, dif_pos hv]
  rfl

theorem encodeChar_one {n : Nat} (h : n ≤ 0x7F) :
    String.utf8EncodeChar (Char.ofNat n) = [UInt8.ofNat n] := by
  unfold String.utf8EncodeChar
  rw [val_ofNat (by omega)]
  exact if_pos h

theorem encodeChar_two {n : Nat} (h : 0x7F < n) (h' : n ≤ 0x7FF) :
    String.utf8EncodeChar (Char.ofNat n) = [UInt8.ofNat (n / 64 % 0x20 + 0xC0), sixBits n] := by
  unfold String.utf8EncodeChar
  rw [val_ofNat (by omega)]
  simp only
  rw [if_neg (by omega), if_pos h']
  rfl

theorem encodeChar_three {n : Nat} (h : 0x7FF < n) (h' : n ≤ 0xFFFF)
    (hs : n < 0xD800 ∨ 0xDFFF < n) :
    String.utf8EncodeChar (Char.ofNat n)
      = [UInt8.ofNat (n / 4096 % 0x10 + 0xE0), sixBits (n / 64), sixBits n] := by
  unfold String.utf8EncodeChar
  rw [val_ofNat (by omega)]
  simp only
  rw [if_neg (by omega), if_neg (by omega), if_pos h']
  rfl

theorem encodeChar_four {n : Nat} (h : 0xFFFF < n) (h' : n < 0x110000) :
    String.utf8EncodeChar (Char.ofNat n)
      = [UInt8.ofNat (n / 262144 % 0x08 + 0xF0), sixBits (n / 4096), sixBits (n / 64),
          sixBits n] := by
  unfold String.utf8EncodeChar
  rw [val_ofNat (by omega)]
  simp only
  rw [if_neg (by omega), if_neg (by omega), if_neg (by omega)]
  rfl

/-! ## sequences that are complete -/

/-- Either an ASCII byte is a character, or a sequence has begun. -/
theorem decodeFrom_none_ok {p : Nat} {b : UInt8} {bs : List UInt8} {cs : List Char}
    (h : decodeFrom p none (b :: bs) = .ok cs) :
    (b.toNat < 0x80 ∧ ∃ cs', cs = Char.ofNat b.toNat :: cs' ∧ decodeFrom (p + 1) none bs = .ok cs')
      ∨ ∃ o, begin? b = some o ∧ decodeFrom (p + 1) (some o) bs = .ok cs := by
  rw [decodeFrom] at h
  by_cases hb : b.toNat < 0x80
  · left
    rw [if_pos hb] at h
    obtain ⟨cs', hd, rfl⟩ := Outcome.map_eq_ok.mp h
    exact ⟨hb, cs', rfl, hd⟩
  · right
    rw [if_neg hb] at h
    cases ho : begin? b with
    | none =>
      rw [ho] at h
      cases h
    | some o =>
      rw [ho] at h
      exact ⟨o, rfl, h⟩

/-- An open sequence goes on with a byte in its range, and with that byte it ends or stays open. -/
theorem decodeFrom_some_ok {p : Nat} {o : Open} {bs : List UInt8} {cs : List Char}
    (h : decodeFrom p (some o) bs = .ok cs) :
    ∃ b rest, bs = b :: rest ∧ o.least ≤ b.toNat ∧ b.toNat ≤ o.greatest
      ∧ if o.more ≤ 1
        then ∃ cs', cs = Char.ofNat (o.extend b).bits :: cs' ∧ decodeFrom (p + 1) none rest = .ok cs'
        else decodeFrom (p + 1) (some (o.extend b)) rest = .ok cs := by
  cases bs with
  | nil => cases h
  | cons b rest =>
    rw [decodeFrom] at h
    by_cases hb : o.least ≤ b.toNat ∧ b.toNat ≤ o.greatest
    · refine ⟨b, rest, rfl, hb.1, hb.2, ?_⟩
      rw [if_pos hb] at h
      simp only at h
      by_cases hm : o.more ≤ 1
      · have hz : (o.extend b).more = 0 := by
          show o.more - 1 = 0
          omega
        rw [if_pos hm]
        rw [if_pos hz] at h
        obtain ⟨cs', hd, rfl⟩ := Outcome.map_eq_ok.mp h
        exact ⟨cs', rfl, hd⟩
      · have hz : (o.extend b).more ≠ 0 := by
          show o.more - 1 ≠ 0
          omega
        rw [if_neg hm]
        rwa [if_neg hz] at h
    · rw [if_neg hb] at h
      cases h

/-- the bits of a character after some continuation bytes -/
def bitsOf (bits : Nat) (tail : List UInt8) : Nat :=
  tail.foldl (fun n b => n * 64 + (b.toNat - 0x80)) bits

theorem bitsOf_cons (o : Open) (b : UInt8) (tail : List UInt8) :
    bitsOf o.bits (b :: tail) = bitsOf (o.extend b).bits tail := by
  rw [bitsOf, List.foldl_cons, Open.extend, bitsOf]

/-- An open sequence takes the bytes that it asks for, and then its character is complete. -/
theorem decodeFrom_tail_ok {k p : Nat} {o : Open} {bs : List UInt8} {cs : List Char}
    (hm : o.more = k + 1) (h : decodeFrom p (some o) bs = .ok cs) :
    ∃ b tail rest p' cs', bs = b :: (tail ++ rest) ∧ o.least ≤ b.toNat ∧ b.toNat ≤ o.greatest
      ∧ tail.length = k ∧ (∀ c ∈ tail, 0x80 ≤ c.toNat ∧ c.toNat ≤ 0xBF)
      ∧ cs = Char.ofNat (bitsOf o.bits (b :: tail)) :: cs' ∧ decodeFrom p' none rest = .ok cs' := by
  induction k generalizing p o bs with
  | zero =>
    obtain ⟨b, rest, rfl, hl, hg, hc⟩ := decodeFrom_some_ok h
    rw [if_pos (by omega)] at hc
    obtain ⟨cs', rfl, hd⟩ := hc
    have ht : ∀ c ∈ ([] : List UInt8), 0x80 ≤ c.toNat ∧ c.toNat ≤ 0xBF := List.forall_mem_nil _
    exact ⟨b, [], rest, _, cs', rfl, hl, hg, rfl, ht, rfl, hd⟩
  | succ k ih =>
    obtain ⟨b, rest, rfl, hl, hg, hc⟩ := decodeFrom_some_ok h
    rw [if_neg (by omega)] at hc
    have hmore : (o.extend b).more = k + 1 := by
      show o.more - 1 = k + 1
      omega
    obtain ⟨c, tail, rest', p', cs', rfl, hcl, hcg, hlen, htail, hcs, hd⟩ := ih hmore hc
    refine ⟨b, c :: tail, rest', p', cs', rfl, hl, hg, ?_, ?_, ?_, hd⟩
    · rw [List.length_cons, hlen]
    · intro d hm
      rcases List.mem_cons.mp hm with rfl | hm
      · exact ⟨hcl, hcg⟩
      · exact htail d hm
    · rw [bitsOf_cons]
      exact hcs

/-- What a first byte asks for: how many bytes are to come, and in which range the next one is, so
    that the sequence is neither overlong nor a surrogate nor too large. -/
inductive Begins (b : Nat) (o : Open) : Prop where
  | two (more : o.more = 1) (bits : o.bits = b - 0xC0) (first : 0xC2 ≤ b ∧ b ≤ 0xDF)
    (least : o.least = 0x80) (greatest : o.greatest = 0xBF)
  | three (more : o.more = 2) (bits : o.bits = b - 0xE0) (first : 0xE0 ≤ b ∧ b ≤ 0xEF)
    (least : 0x80 ≤ o.least ∧ (b = 0xE0 → 0xA0 ≤ o.least))
    (greatest : o.greatest ≤ 0xBF ∧ (b = 0xED → o.greatest ≤ 0x9F))
  | four (more : o.more = 3) (bits : o.bits = b - 0xF0) (first : 0xF0 ≤ b ∧ b ≤ 0xF4)
    (least : 0x80 ≤ o.least ∧ (b = 0xF0 → 0x90 ≤ o.least))
    (greatest : o.greatest ≤ 0xBF ∧ (b = 0xF4 → o.greatest ≤ 0x8F))

theorem begins_of_begin? {b : UInt8} {o : Open} (h : begin? b = some o) : Begins b.toNat o := by
  unfold begin? at h
  simp only at h
  split at h
  next hb =>
    cases h
    exact .two rfl rfl hb rfl rfl
  split at h
  next hb =>
    cases h
    exact .three rfl (by simp only; omega) (by omega) (by simp only; omega) (by simp only; omega)
  split at h
  next hb =>
    cases h
    exact .three rfl (by simp only; omega) (by omega) (by simp only; omega) (by simp only; omega)
  split at h
  next hb =>
    cases h
    exact .three rfl rfl (by omega) (by simp only; omega) (by simp only; omega)
  split at h
  next hb =>
    cases h
    exact .four rfl (by simp only; omega) (by omega) (by simp only; omega) (by simp only; omega)
  split at h
  next hb =>
    cases h
    exact .four rfl (by simp only; omega) (by omega) (by simp only; omega) (by simp only; omega)
  split at h
  next hb =>
    cases h
    exact .four rfl rfl (by omega) (by simp only; omega) (by simp only; omega)
  cases h

/-- A complete sequence is the bytes of its character. -/
theorem Begins.encodeChar_eq {b c : UInt8} {o : Open} {tail : List UInt8} (h : Begins b.toNat o)
    (hm : o.more = tail.length + 1) (hl : o.least ≤ c.toNat) (hg : c.toNat ≤ o.greatest)
    (ht : ∀ d ∈ tail, 0x80 ≤ d.toNat ∧ d.toNat ≤ 0xBF) :
    String.utf8EncodeChar (Char.ofNat (bitsOf o.bits (c :: tail))) = b :: c :: tail := by
  cases h with
  | two more bits first least greatest =>
    obtain rfl : tail = [] := List.length_eq_zero_iff.mp (by omega)
    show String.utf8EncodeChar (Char.ofNat (o.bits * 64 + (c.toNat - 0x80))) = _
    rw [encodeChar_two (by omega) (by omega), eq_ofNat (b := b) (by omega),
      eq_sixBits (b := c) (by omega)]
  | three more bits first least greatest =>
    obtain ⟨d, rfl⟩ : ∃ d, tail = [d] := List.length_eq_one_iff.mp (by omega)
    have hd := ht d List.mem_cons_self
    show String.utf8EncodeChar
      (Char.ofNat ((o.bits * 64 + (c.toNat - 0x80)) * 64 + (d.toNat - 0x80))) = _
    rw [encodeChar_three (by omega) (by omega) (by omega), eq_ofNat (b := b) (by omega),
      eq_sixBits (b := c) (by omega), eq_sixBits (b := d) (by omega)]
  | four more bits first least greatest =>
    obtain ⟨d, e, rfl⟩ : ∃ d e, tail = [d, e] := List.length_eq_two.mp (by omega)
    have hd := ht d List.mem_cons_self
    have he := ht e (List.mem_cons_of_mem _ List.mem_cons_self)
    show String.utf8EncodeChar (Char.ofNat
      (((o.bits * 64 + (c.toNat - 0x80)) * 64 + (d.toNat - 0x80)) * 64 + (e.toNat - 0x80))) = _
    rw [encodeChar_four (by omega) (by omega), eq_ofNat (b := b) (by omega),
      eq_sixBits (b := c) (by omega), eq_sixBits (b := d) (by omega), eq_sixBits (b := e) (by omega)]

/-! ## a text -/

theorem encode_of_decodeFrom {p : Nat} {bs : List UInt8} {cs : List Char}
    (h : decodeFrom p none bs = .ok cs) : cs.flatMap String.utf8EncodeChar = bs := by
  -- a sequence takes more than one byte, so the induction is on the number of bytes
  induction hn : bs.length using Nat.strongRecOn generalizing p bs cs with
  | _ n ih =>
    cases bs with
    | nil =>
      cases h
      rfl
    | cons b bs =>
      rcases decodeFrom_none_ok h with ⟨hb, cs', rfl, hd⟩ | ⟨o, ho, hd⟩
      · rw [List.flatMap_cons, encodeChar_one (by omega), UInt8.ofNat_toNat,
          ih bs.length (by rw [← hn]; exact Nat.lt_succ_self _) hd rfl]
        rfl
      · have hbegin := begins_of_begin? ho
        obtain ⟨k, hk⟩ : ∃ k, o.more = k + 1 := by
          cases hbegin with
          | two more | three more | four more => exact ⟨_, more⟩
        obtain ⟨c, tail, rest, p', cs', rfl, hl, hg, hlen, ht, rfl, hrest⟩ :=
          decodeFrom_tail_ok hk hd
        have hlt : rest.length < n := by
          rw [← hn]
          simp only [List.length_cons, List.length_append]
          omega
        rw [List.flatMap_cons, hbegin.encodeChar_eq (by omega) hl hg ht,
          ih rest.length hlt hrest rfl]
        rfl

/-- Bytes decode to a text if and only if they are the bytes of that text. -/
theorem decode_eq_ok_iff {bs : List UInt8} {s : String} : decode bs = .ok s ↔ encode s = bs := by
  constructor
  · intro h
    obtain ⟨cs, hd, rfl⟩ := Outcome.map_eq_ok.mp h
    rw [encode_eq, String.toList_ofList, encode_of_decodeFrom hd]
  · rintro rfl
    exact decode_encode s

end FullText.Text.Utf8
