import ComponentCompiler.Disk.Path
import ComponentCompiler.Proofs.Units

/-! The bytes of characters and of names: decoding a character finds the bytes that encode it,
wherever they stand, and the text of a name tells the name. -/

namespace ComponentCompiler

namespace Text.Utf8

lemma follow_succ {n bits seen v : Nat} {low high : UInt8} {bytes : List UInt8}
    (h : follow (n + 1) low high bits seen bytes = .ok v) :
    ∃ b rest, bytes = b :: rest ∧ low.toNat ≤ b.toNat ∧ b.toNat ≤ high.toNat ∧
      follow n 0x80 0xbf (bits * 64 + b.toNat % 64) (seen + 1) rest = .ok v := by
  cases bytes with
  | nil => cases h
  | cons b rest =>
    rw [follow] at h
    split at h
    · next hb => exact ⟨b, rest, rfl, hb.1, hb.2, h⟩
    · cases h

lemma byte_eq {n : Nat} {b : UInt8} (h : n = b.toNat) : UInt8.ofNat n = b := by
  rw [h, UInt8.ofNat_toNat]

lemma encode_one {b : UInt8} (hb : b.toNat < 0x80) :
    String.utf8EncodeChar (Char.ofNat b.toNat) = [b] := by
  have hv : (Char.ofNat b.toNat).val.toNat = b.toNat :=
    Utf16.toNat_ofNat_of_valid (Or.inl (by omega))
  simp only [String.utf8EncodeChar, hv]
  rw [if_pos (by omega), byte_eq rfl]

lemma encode_two {b b₁ : UInt8} {v : Nat} (hv : v = (b.toNat - 0xc0) * 64 + b₁.toNat % 64)
    (hb : 0xc2 ≤ b.toNat ∧ b.toNat < 0xe0) (hb₁ : 0x80 ≤ b₁.toNat ∧ b₁.toNat ≤ 0xbf) :
    String.utf8EncodeChar (Char.ofNat v) = [b, b₁] := by
  have hn : (Char.ofNat v).val.toNat = v := Utf16.toNat_ofNat_of_valid (Or.inl (by omega))
  simp only [String.utf8EncodeChar, hn]
  rw [if_neg (by omega), if_pos (by omega), byte_eq (by omega : _ = b.toNat),
    byte_eq (by omega : _ = b₁.toNat)]

lemma encode_three {b b₁ b₂ : UInt8} {v : Nat}
    (hv : v = ((b.toNat - 0xe0) * 64 + b₁.toNat % 64) * 64 + b₂.toNat % 64)
    (hb : 0xe0 ≤ b.toNat ∧ b.toNat < 0xf0) (hb₁ : 0x80 ≤ b₁.toNat ∧ b₁.toNat ≤ 0xbf)
    (hb₂ : 0x80 ≤ b₂.toNat ∧ b₂.toNat ≤ 0xbf) (hlow : b.toNat = 0xe0 → 0xa0 ≤ b₁.toNat)
    (hhigh : b.toNat = 0xed → b₁.toNat ≤ 0x9f) :
    String.utf8EncodeChar (Char.ofNat v) = [b, b₁, b₂] := by
  have hn : (Char.ofNat v).val.toNat = v := Utf16.toNat_ofNat_of_valid (by
    rw [Nat.isValidChar]
    omega)
  simp only [String.utf8EncodeChar, hn]
  rw [if_neg (by omega), if_neg (by omega), if_pos (by omega), byte_eq (by omega : _ = b.toNat),
    byte_eq (by omega : _ = b₁.toNat), byte_eq (by omega : _ = b₂.toNat)]

lemma encode_four {b b₁ b₂ b₃ : UInt8} {v : Nat}
    (hv : v = (((b.toNat - 0xf0) * 64 + b₁.toNat % 64) * 64 + b₂.toNat % 64) * 64 + b₃.toNat % 64)
    (hb : 0xf0 ≤ b.toNat ∧ b.toNat < 0xf5) (hb₁ : 0x80 ≤ b₁.toNat ∧ b₁.toNat ≤ 0xbf)
    (hb₂ : 0x80 ≤ b₂.toNat ∧ b₂.toNat ≤ 0xbf) (hb₃ : 0x80 ≤ b₃.toNat ∧ b₃.toNat ≤ 0xbf)
    (hlow : b.toNat = 0xf0 → 0x90 ≤ b₁.toNat) (hhigh : b.toNat = 0xf4 → b₁.toNat ≤ 0x8f) :
    String.utf8EncodeChar (Char.ofNat v) = [b, b₁, b₂, b₃] := by
  have hn : (Char.ofNat v).val.toNat = v := Utf16.toNat_ofNat_of_valid (Or.inr (by omega))
  simp only [String.utf8EncodeChar, hn]
  rw [if_neg (by omega), if_neg (by omega), if_neg (by omega), byte_eq (by omega : _ = b.toNat),
    byte_eq (by omega : _ = b₁.toNat), byte_eq (by omega : _ = b₂.toNat),
    byte_eq (by omega : _ = b₃.toNat)]

lemma le_of_low {p : Prop} [Decidable p] {m : UInt8} {n : Nat} (hm : 0x80 ≤ m.toNat)
    (h : (if p then m else 0x80).toNat ≤ n) : 0x80 ≤ n ∧ (p → m.toNat ≤ n) := by
  split at h
  · exact ⟨Nat.le_trans hm h, fun _ => h⟩
  · next hp => exact ⟨h, fun hp' => (hp hp').elim⟩

lemma le_of_high {p : Prop} [Decidable p] {m : UInt8} {n : Nat} (hm : m.toNat ≤ 0xbf)
    (h : n ≤ (if p then m else 0xbf).toNat) : n ≤ 0xbf ∧ (p → n ≤ m.toNat) := by
  split at h
  · exact ⟨Nat.le_trans h hm, fun _ => h⟩
  · next hp => exact ⟨h, fun hp' => (hp hp').elim⟩

lemma lead?_eq_some {b : UInt8} {lead : Lead} (h : lead? b = some lead) :
    (0xc2 ≤ b.toNat ∧ b.toNat < 0xe0 ∧ lead = ⟨1, 0x80, 0xbf, b.toNat - 0xc0⟩) ∨
    (0xe0 ≤ b.toNat ∧ b.toNat < 0xf0 ∧ lead = ⟨2, if b.toNat = 0xe0 then 0xa0 else 0x80,
      if b.toNat = 0xed then 0x9f else 0xbf, b.toNat - 0xe0⟩) ∨
    (0xf0 ≤ b.toNat ∧ b.toNat < 0xf5 ∧ lead = ⟨3, if b.toNat = 0xf0 then 0x90 else 0x80,
      if b.toNat = 0xf4 then 0x8f else 0xbf, b.toNat - 0xf0⟩) := by
  rw [lead?] at h
  split at h
  · cases h
  split at h
  · exact Or.inl ⟨by omega, by omega, (Option.some.inj h).symm⟩
  split at h
  · exact Or.inr (Or.inl ⟨by omega, by omega, (Option.some.inj h).symm⟩)
  split at h
  · exact Or.inr (Or.inr ⟨by omega, by omega, (Option.some.inj h).symm⟩)
  · cases h

lemma exists_rest_of_first {b : UInt8} {bytes : List UInt8} {c : Char} (h : first b bytes = .ok c) :
    ∃ rest, b :: bytes = String.utf8EncodeChar c ++ rest := by
  rw [first] at h
  split at h
  · next hb =>
    obtain rfl := Except.ok.inj h
    exact ⟨bytes, by rw [encode_one hb]; rfl⟩
  · split at h
    · cases h
    · next lead hlead =>
      cases hf : follow lead.following lead.low lead.high lead.bits 1 bytes with
      | error flaw => rw [hf] at h; cases h
      | ok v =>
        rw [hf] at h
        obtain rfl := Except.ok.inj h
        rcases lead?_eq_some hlead with ⟨hlo, hhi, rfl⟩ | ⟨hlo, hhi, rfl⟩ | ⟨hlo, hhi, rfl⟩
        · obtain ⟨b₁, rest, rfl, hb₁, hb₁', hf⟩ := follow_succ hf
          exact ⟨rest, by rw [encode_two (Except.ok.inj hf).symm ⟨hlo, hhi⟩ ⟨hb₁, hb₁'⟩]; rfl⟩
        · obtain ⟨b₁, rest, rfl, hb₁, hb₁', hf⟩ := follow_succ hf
          obtain ⟨b₂, rest, rfl, hb₂, hb₂', hf⟩ := follow_succ hf
          obtain ⟨hb₁, hlow⟩ := le_of_low (by decide) hb₁
          obtain ⟨hb₁', hhigh⟩ := le_of_high (by decide) hb₁'
          exact ⟨rest, by rw [encode_three (Except.ok.inj hf).symm ⟨hlo, hhi⟩ ⟨hb₁, hb₁'⟩
            ⟨hb₂, hb₂'⟩ hlow hhigh]; rfl⟩
        · obtain ⟨b₁, rest, rfl, hb₁, hb₁', hf⟩ := follow_succ hf
          obtain ⟨b₂, rest, rfl, hb₂, hb₂', hf⟩ := follow_succ hf
          obtain ⟨b₃, rest, rfl, hb₃, hb₃', hf⟩ := follow_succ hf
          obtain ⟨hb₁, hlow⟩ := le_of_low (by decide) hb₁
          obtain ⟨hb₁', hhigh⟩ := le_of_high (by decide) hb₁'
          exact ⟨rest, by rw [encode_four (Except.ok.inj hf).symm ⟨hlo, hhi⟩ ⟨hb₁, hb₁'⟩
            ⟨hb₂, hb₂'⟩ ⟨hb₃, hb₃'⟩ hlow hhigh]; rfl⟩

theorem eq_append_of_first {b : UInt8} {bytes : List UInt8} {c : Char}
    (h : first b bytes = .ok c) :
    b :: bytes = String.utf8EncodeChar c ++ bytes.drop (c.utf8Size - 1) := by
  obtain ⟨rest, hr⟩ := exists_rest_of_first h
  have hdrop : (b :: bytes).drop c.utf8Size = rest := by
    rw [hr, ← String.length_utf8EncodeChar, List.drop_left]
  have hsize : c.utf8Size = c.utf8Size - 1 + 1 := (Nat.sub_add_cancel c.utf8Size_pos).symm
  rw [hsize, List.drop_succ_cons] at hdrop
  rw [hr, hdrop]

lemma le_of_first_error {b : UInt8} {bytes : List UInt8} {flaw : Flaw}
    (h : first b bytes = .error flaw) : 0x80 ≤ b.toNat := by
  rw [first] at h
  split at h
  · cases h
  · next hb => exact Nat.not_lt.mp hb

lemma follow_cons {n bits seen : Nat} {low high b : UInt8} (hlow : low.toNat ≤ b.toNat)
    (hhigh : b.toNat ≤ high.toNat) (bytes : List UInt8) :
    follow (n + 1) low high bits seen (b :: bytes) =
      follow n 0x80 0xbf (bits * 64 + b.toNat % 64) (seen + 1) bytes := by
  rw [follow, if_pos ⟨UInt8.le_iff_toNat_le.mpr hlow, UInt8.le_iff_toNat_le.mpr hhigh⟩]

lemma follow_continuation {n bits seen : Nat} {b : UInt8} (hb : 0x80 ≤ b.toNat ∧ b.toNat ≤ 0xbf)
    (bytes : List UInt8) :
    follow (n + 1) 0x80 0xbf bits seen (b :: bytes) =
      follow n 0x80 0xbf (bits * 64 + b.toNat % 64) (seen + 1) bytes := by
  have hlow : (0x80 : UInt8).toNat ≤ b.toNat := hb.1
  have hhigh : b.toNat ≤ (0xbf : UInt8).toNat := hb.2
  exact follow_cons hlow hhigh bytes

lemma first_of_lead {b : UInt8} {lead : Lead} (hl : lead? b = some lead) (bytes : List UInt8) :
    first b bytes =
      (follow lead.following lead.low lead.high lead.bits 1 bytes).map Char.ofNat := by
  have hb : ¬ b < 0x80 := by
    intro hlt
    have hlt : b.toNat < 0x80 := hlt
    rcases lead?_eq_some hl with ⟨h, -⟩ | ⟨h, -⟩ | ⟨h, -⟩ <;> omega
  rw [first, if_neg hb, hl]

lemma toNat_byte {n : Nat} (h : n < 0x100) : (UInt8.ofNat n).toNat = n :=
  (UInt8.toNat_ofNat' ..).trans (Nat.mod_eq_of_lt h)

lemma first_one {b : UInt8} (hb : b.toNat < 0x80) (rest : List UInt8) :
    first b rest = .ok (Char.ofNat b.toNat) := by
  rw [first, if_pos (UInt8.lt_iff_toNat_lt.mpr hb)]

lemma first_two {b b₁ : UInt8} (hb : 0xc2 ≤ b.toNat ∧ b.toNat < 0xe0)
    (hb₁ : 0x80 ≤ b₁.toNat ∧ b₁.toNat ≤ 0xbf) (rest : List UInt8) :
    first b (b₁ :: rest) = .ok (Char.ofNat ((b.toNat - 0xc0) * 64 + b₁.toNat % 64)) := by
  have hl : lead? b = some ⟨1, 0x80, 0xbf, b.toNat - 0xc0⟩ := by
    simp only [lead?]
    rw [if_neg (by omega), if_pos (by omega)]
  rw [first_of_lead hl, follow_continuation hb₁]
  rfl

lemma first_three {b b₁ b₂ : UInt8} (hb : 0xe0 ≤ b.toNat ∧ b.toNat < 0xf0)
    (hb₁ : 0x80 ≤ b₁.toNat ∧ b₁.toNat ≤ 0xbf) (hb₂ : 0x80 ≤ b₂.toNat ∧ b₂.toNat ≤ 0xbf)
    (hlow : b.toNat = 0xe0 → 0xa0 ≤ b₁.toNat) (hhigh : b.toNat = 0xed → b₁.toNat ≤ 0x9f)
    (rest : List UInt8) :
    first b (b₁ :: b₂ :: rest) =
      .ok (Char.ofNat (((b.toNat - 0xe0) * 64 + b₁.toNat % 64) * 64 + b₂.toNat % 64)) := by
  have hl : lead? b = some ⟨2, if b.toNat = 0xe0 then 0xa0 else 0x80,
      if b.toNat = 0xed then 0x9f else 0xbf, b.toNat - 0xe0⟩ := by
    simp only [lead?]
    rw [if_neg (by omega), if_neg (by omega), if_pos (by omega)]
  have hlo : (if b.toNat = 0xe0 then (0xa0 : UInt8) else 0x80).toNat ≤ b₁.toNat := by
    split
    · next h => exact hlow h
    · exact hb₁.1
  have hhi : b₁.toNat ≤ (if b.toNat = 0xed then (0x9f : UInt8) else 0xbf).toNat := by
    split
    · next h => exact hhigh h
    · exact hb₁.2
  rw [first_of_lead hl, follow_cons hlo hhi, follow_continuation hb₂]
  rfl

lemma first_four {b b₁ b₂ b₃ : UInt8} (hb : 0xf0 ≤ b.toNat ∧ b.toNat < 0xf5)
    (hb₁ : 0x80 ≤ b₁.toNat ∧ b₁.toNat ≤ 0xbf) (hb₂ : 0x80 ≤ b₂.toNat ∧ b₂.toNat ≤ 0xbf)
    (hb₃ : 0x80 ≤ b₃.toNat ∧ b₃.toNat ≤ 0xbf) (hlow : b.toNat = 0xf0 → 0x90 ≤ b₁.toNat)
    (hhigh : b.toNat = 0xf4 → b₁.toNat ≤ 0x8f) (rest : List UInt8) :
    first b (b₁ :: b₂ :: b₃ :: rest) = .ok (Char.ofNat
      ((((b.toNat - 0xf0) * 64 + b₁.toNat % 64) * 64 + b₂.toNat % 64) * 64 + b₃.toNat % 64)) := by
  have hl : lead? b = some ⟨3, if b.toNat = 0xf0 then 0x90 else 0x80,
      if b.toNat = 0xf4 then 0x8f else 0xbf, b.toNat - 0xf0⟩ := by
    simp only [lead?]
    rw [if_neg (by omega), if_neg (by omega), if_neg (by omega), if_pos (by omega)]
  have hlo : (if b.toNat = 0xf0 then (0x90 : UInt8) else 0x80).toNat ≤ b₁.toNat := by
    split
    · next h => exact hlow h
    · exact hb₁.1
  have hhi : b₁.toNat ≤ (if b.toNat = 0xf4 then (0x8f : UInt8) else 0xbf).toNat := by
    split
    · next h => exact hhigh h
    · exact hb₁.2
  rw [first_of_lead hl, follow_cons hlo hhi, follow_continuation hb₂, follow_continuation hb₃]
  rfl

theorem first_utf8EncodeChar (c : Char) (rest : List UInt8) :
    ∃ b bytes, String.utf8EncodeChar c ++ rest = b :: bytes ∧ first b bytes = .ok c := by
  have hv : c.val.toNat = c.toNat := rfl
  have hc := Utf16.toNat_char_lt c
  have hs := Utf16.not_surrogate_of_char c
  simp only [String.utf8EncodeChar, hv]
  split_ifs with h₁ h₂ h₃ <;> simp only [List.cons_append, List.nil_append]
  · have hn : (UInt8.ofNat c.toNat).toNat = c.toNat := toNat_byte (by omega)
    refine ⟨_, _, rfl, ?_⟩
    rw [first_one (by omega), hn, Char.ofNat_toNat]
  · have hn : (UInt8.ofNat (c.toNat / 64 % 32 + 192)).toNat = _ := toNat_byte (by omega)
    have hn₁ : (UInt8.ofNat (c.toNat % 64 + 128)).toNat = _ := toNat_byte (by omega)
    have hval : (c.toNat / 64 % 32 + 192 - 0xc0) * 64 + (c.toNat % 64 + 128) % 64 = c.toNat := by
      omega
    refine ⟨_, _, rfl, ?_⟩
    rw [first_two (by omega) (by omega), hn, hn₁, hval, Char.ofNat_toNat]
  · have hn : (UInt8.ofNat (c.toNat / 4096 % 16 + 224)).toNat = _ := toNat_byte (by omega)
    have hn₁ : (UInt8.ofNat (c.toNat / 64 % 64 + 128)).toNat = _ := toNat_byte (by omega)
    have hn₂ : (UInt8.ofNat (c.toNat % 64 + 128)).toNat = _ := toNat_byte (by omega)
    have hval : ((c.toNat / 4096 % 16 + 224 - 0xe0) * 64 + (c.toNat / 64 % 64 + 128) % 64) * 64 +
        (c.toNat % 64 + 128) % 64 = c.toNat := by omega
    refine ⟨_, _, rfl, ?_⟩
    rw [first_three (by omega) (by omega) (by omega) (by omega)
      (by omega), hn, hn₁, hn₂, hval, Char.ofNat_toNat]
  · have hn : (UInt8.ofNat (c.toNat / 262144 % 8 + 240)).toNat = _ := toNat_byte (by omega)
    have hn₁ : (UInt8.ofNat (c.toNat / 4096 % 64 + 128)).toNat = _ := toNat_byte (by omega)
    have hn₂ : (UInt8.ofNat (c.toNat / 64 % 64 + 128)).toNat = _ := toNat_byte (by omega)
    have hn₃ : (UInt8.ofNat (c.toNat % 64 + 128)).toNat = _ := toNat_byte (by omega)
    have hval : (((c.toNat / 262144 % 8 + 240 - 0xf0) * 64 +
        (c.toNat / 4096 % 64 + 128) % 64) * 64 +
        (c.toNat / 64 % 64 + 128) % 64) * 64 + (c.toNat % 64 + 128) % 64 = c.toNat := by omega
    refine ⟨_, _, rfl, ?_⟩
    rw [first_four (by omega) (by omega)
      (by omega) (by omega) (by omega) (by omega), hn, hn₁, hn₂, hn₃, hval, Char.ofNat_toNat]

end Text.Utf8

namespace Utf16

lemma decodePathFrom_drop (skip : Nat) (bytes : List UInt8) :
    decodePathFrom skip bytes = decodePath (bytes.drop skip) := by
  induction skip generalizing bytes with
  | zero => rfl
  | succ skip ih =>
    cases bytes with
    | nil => rfl
    | cons b bytes => exact ih bytes

lemma toNat_half (b : UInt8) : (0xdc00 + b.toUInt16).toNat = 0xdc00 + b.toNat := by
  have hb := b.toNat_lt
  rw [UInt16.toNat_add, UInt8.toNat_toUInt16]
  exact Nat.mod_eq_of_lt (by change 0xdc00 + b.toNat < _; omega)

lemma isLeading_half (b : UInt8) : isLeading (0xdc00 + b.toUInt16) = false := by
  rw [Bool.eq_false_iff, ne_eq, isLeading_iff, toNat_half]
  omega

lemma alone_half (b : UInt8) : alone (0xdc00 + b.toUInt16) = .half (0xdc00 + b.toUInt16) := by
  have hb := b.toNat_lt
  have ht : isTrailing (0xdc00 + b.toUInt16) = true := by
    rw [isTrailing_iff, toNat_half]
    omega
  rw [alone, ht, Bool.or_true]
  rfl

lemma byteOfHalf?_half {b : UInt8} (hb : 0x80 ≤ b.toNat) :
    byteOfHalf? (0xdc00 + b.toUInt16) = some b := by
  have hlt := b.toNat_lt
  have hlo : (0xdc80 : UInt16) ≤ 0xdc00 + b.toUInt16 := by
    rw [UInt16.le_iff_toNat_le, toNat_half]
    change 0xdc80 ≤ _
    omega
  have hhi : 0xdc00 + b.toUInt16 ≤ (0xdcff : UInt16) := by
    rw [UInt16.le_iff_toNat_le, toNat_half]
    change _ ≤ 0xdcff
    omega
  have hsub : 0xdc00 + b.toUInt16 - 0xdc00 = b.toUInt16 := by
    rw [UInt16.add_comm, UInt16.add_sub_cancel]
  rw [byteOfHalf?, decide_eq_true hlo, decide_eq_true hhi, hsub, UInt8.toUInt8_toUInt16]
  rfl

lemma encodeFrom_decodePath (pos : Nat) (bytes : List UInt8) :
    encodeFrom byteOfHalf? pos (decodePath bytes).points = .ok bytes := by
  induction bytes using (measure List.length).wf.induction generalizing pos with
  | h bytes ih =>
    cases bytes with
    | nil => rfl
    | cons b bytes =>
      have hlt : ∀ k, (bytes.drop k).length < (b :: bytes).length := by
        intro k
        rw [List.length_drop, List.length_cons]
        omega
      rw [decodePath, decodePathFrom]
      split
      · next c hc =>
        have hrest := ih (bytes.drop (c.utf8Size - 1)) (hlt _) (pos + 1)
        rw [points_ofChar_append, encodeFrom, decodePathFrom_drop, hrest, Except.map,
          ← Text.Utf8.eq_append_of_first hc]
      · next flaw hf =>
        have hb := Text.Utf8.le_of_first_error hf
        have hrest := ih (bytes.drop 0) (hlt 0) (pos + 1)
        rw [points_cons_of_not_leading (isLeading_half b), alone_half, encodeFrom,
          byteOfHalf?_half hb, decodePathFrom_drop]
        dsimp only
        rw [hrest]
        rfl

theorem encodePath_decodePath (bytes : List UInt8) : encodePath (decodePath bytes) = .ok bytes :=
  encodeFrom_decodePath 0 bytes

lemma decodePath_append (c : Char) (bytes : List UInt8) :
    decodePath (String.utf8EncodeChar c ++ bytes) = ofChar c ++ decodePath bytes := by
  obtain ⟨b, rest, he, hf⟩ := Text.Utf8.first_utf8EncodeChar c bytes
  have hdrop : rest.drop (c.utf8Size - 1) = bytes := by
    have hlen := Text.Utf8.eq_append_of_first hf
    rw [← he] at hlen
    exact (List.append_cancel_left hlen).symm
  rw [he, decodePath, decodePathFrom]
  simp only [hf]
  rw [decodePathFrom_drop, hdrop]

theorem decodePath_encode (s : Text) : decodePath (Text.Utf8.encode s) = ofText s := by
  induction s with
  | nil => rfl
  | cons c s ih =>
    have hcons : Text.Utf8.encode (c :: s) = String.utf8EncodeChar c ++ Text.Utf8.encode s :=
      List.flatMap_cons
    rw [hcons, decodePath_append, ih]
    rfl

end Utf16

lemma Name.text_injective : Function.Injective Name.text := by
  intro a b h
  have hbytes : a.bytes = b.bytes := by
    have ha := Utf16.encodePath_decodePath a.bytes
    rw [show Utf16.decodePath a.bytes = Utf16.decodePath b.bytes from h,
      Utf16.encodePath_decodePath] at ha
    exact (Except.ok.inj ha).symm
  cases a
  cases b
  cases hbytes
  rfl

end ComponentCompiler
