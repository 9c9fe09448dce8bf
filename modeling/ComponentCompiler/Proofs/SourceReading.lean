import ComponentCompiler.Proofs.RunRefinement
import ComponentCompiler.Proofs.Searching
import Mathlib.Order.Bounds.Basic

/-! Sources as they are read. A file that holds a text gives that text with one line feed for each
line ending; any other file is refused where the longest text that it begins with ends. -/

namespace ComponentCompiler

namespace Text

namespace Utf8

lemma encode_cons (c : Char) (s : Text) :
    encode (c :: s) = String.utf8EncodeChar c ++ encode s :=
  List.flatMap_cons

lemma utf8EncodeChar_append_inj {c d : Char} {s t : List UInt8}
    (h : String.utf8EncodeChar c ++ s = String.utf8EncodeChar d ++ t) : c = d ∧ s = t := by
  obtain ⟨b, bytes, hc, hfirst⟩ := first_utf8EncodeChar c s
  obtain ⟨b', bytes', hd, hfirst'⟩ := first_utf8EncodeChar d t
  rw [hc, hd] at h
  obtain ⟨rfl, rfl⟩ := List.cons.inj h
  obtain rfl := Except.ok.inj (hfirst.symm.trans hfirst')
  exact ⟨rfl, List.append_cancel_left (hc.trans hd.symm)⟩

lemma decodeFrom_cases (pos : Nat) (bytes : List UInt8) :
    (∃ s, bytes = encode s ∧ decodeFrom 0 pos bytes = .ok s) ∨
      ∃ s b rest flaw, bytes = encode s ++ b :: rest ∧ first b rest = .error flaw ∧
        decodeFrom 0 pos bytes =
          .error ⟨flaw.reason, pos + (encode s).length, b, flaw.length⟩ := by
  -- A step takes the bytes of a whole character, so the induction is on the length.
  induction hn : bytes.length using Nat.strong_induction_on generalizing pos bytes with
  | _ n ih =>
    subst hn
    cases bytes with
    | nil => exact Or.inl ⟨[], rfl, rfl⟩
    | cons b bytes =>
      rw [decodeFrom]
      cases hfirst : first b bytes with
      | error flaw => exact Or.inr ⟨[], b, bytes, flaw, rfl, hfirst, rfl⟩
      | ok c =>
        have hbytes := eq_append_of_first hfirst
        have hlength : (bytes.drop (c.utf8Size - 1)).length < (b :: bytes).length := by
          rw [List.length_drop, List.length_cons]
          omega
        have hsize : (String.utf8EncodeChar c).length = c.utf8Size - 1 + 1 := by
          rw [String.length_utf8EncodeChar, Nat.sub_add_cancel c.utf8Size_pos]
        dsimp only
        rw [decodeFrom_skip]
        rcases ih _ hlength (pos + 1 + (c.utf8Size - 1)) _ rfl with
          ⟨s, hs, hd⟩ | ⟨s, b', rest, flaw, hs, hf, hd⟩
        · refine Or.inl ⟨c :: s, ?_, ?_⟩
          · rw [encode_cons, ← hs]
            exact hbytes
          · rw [hd]
            rfl
        · refine Or.inr ⟨c :: s, b', rest, flaw, ?_, hf, ?_⟩
          · rw [encode_cons, List.append_assoc, ← hs]
            exact hbytes
          · have hpos : pos + 1 + (c.utf8Size - 1) + (encode s).length =
                pos + (encode (c :: s)).length := by
              rw [encode_cons, List.length_append, hsize]
              omega
            rw [hd, hpos]
            rfl

lemma isPrefix_of_first_error {b : UInt8} {rest : List UInt8} {flaw : Flaw}
    (hf : first b rest = .error flaw) {s t : Text} (h : encode t <+: encode s ++ b :: rest) :
    t <+: s := by
  induction t generalizing s with
  | nil => exact List.nil_prefix
  | cons c t ih =>
    obtain ⟨more, hmore⟩ := h
    rw [encode_cons, List.append_assoc] at hmore
    cases s with
    | nil =>
      obtain ⟨b', bytes, hc, hfirst⟩ := first_utf8EncodeChar c (encode t ++ more)
      rw [hc] at hmore
      obtain ⟨rfl, rfl⟩ := List.cons.inj hmore
      cases hfirst.symm.trans hf
    | cons d s =>
      rw [encode_cons, List.append_assoc] at hmore
      obtain ⟨rfl, hrest⟩ := utf8EncodeChar_append_inj hmore
      rw [List.cons_prefix_cons]
      exact ⟨rfl, ih ⟨more, hrest⟩⟩

lemma encode_isPrefix {s t : Text} (h : t <+: s) : encode t <+: encode s := by
  obtain ⟨more, rfl⟩ := h
  exact ⟨encode more, List.flatMap_append.symm⟩

theorem decode_eq_ok_iff {bytes : List UInt8} {s : Text} :
    decode bytes = .ok s ↔ bytes = encode s := by
  constructor
  · intro h
    rcases decodeFrom_cases 0 bytes with ⟨t, ht, hd⟩ | ⟨t, b, rest, flaw, ht, hf, hd⟩
    · obtain rfl := Except.ok.inj (hd.symm.trans h)
      exact ht
    · cases hd.symm.trans h
  · rintro rfl
    exact decode_encode s

theorem decode_eq_error {bytes : List UInt8} (h : ∀ s, bytes ≠ encode s) :
    ∃ fault, decode bytes = .error fault ∧
      IsGreatest {n | ∃ s, encode s <+: bytes ∧ n = (encode s).length} fault.position := by
  rcases decodeFrom_cases 0 bytes with ⟨s, hs, -⟩ | ⟨s, b, rest, flaw, rfl, hf, hd⟩
  · exact (h s hs).elim
  · refine ⟨_, hd, ⟨s, List.prefix_append _ _, Nat.zero_add _⟩, ?_⟩
    rintro n ⟨t, ht, rfl⟩
    rw [Nat.zero_add]
    exact (encode_isPrefix (isPrefix_of_first_error hf ht)).length_le

end Utf8

lemma replace_cons {m c : Char} (h : m ≠ c) (mark new s : Text) :
    replace (m :: mark) new (c :: s) = c :: replace (m :: mark) new s := by
  have hm : m ∉ [c] := by simpa using h
  exact replaceFrom_append_of_head_notMem hm mark new s

lemma replace_return (s : Text) :
    replace ['\r'] ['\n'] ('\r' :: s) = '\n' :: replace ['\r'] ['\n'] s := by
  rw [replace, replaceFrom]
  rfl

def withLineFeeds (s : Text) : Text :=
  replace ['\r'] ['\n'] (replace ['\r', '\n'] ['\n'] s)

theorem unifyNewlines_eq_withLineFeeds (s : Text) : s.unifyNewlines = s.withLineFeeds := by
  unfold withLineFeeds
  fun_induction unifyNewlines s with
  | case1 => rfl
  | case2 s ih =>
    have hpair : replace ['\r', '\n'] ['\n'] ('\r' :: '\n' :: s) =
        '\n' :: replace ['\r', '\n'] ['\n'] s := by
      rw [replace, replaceFrom]
      rfl
    rw [hpair, replace_cons (by decide), ih]
  | case3 s hs ih =>
    have hlone : replace ['\r', '\n'] ['\n'] ('\r' :: s) =
        '\r' :: replace ['\r', '\n'] ['\n'] s := by
      have hnone : after? ['\r', '\n'] ('\r' :: s) = none := by
        cases s with
        | nil => rfl
        | cons c s =>
          have hc : '\n' ≠ c := by
            rintro rfl
            exact hs s rfl
          simp [after?, hc]
      rw [replace, replaceFrom, hnone]
      rfl
    rw [hlone, replace_return, ih]
  | case4 c s _ hc ih =>
    rw [replace_cons (Ne.symm hc), replace_cons (Ne.symm hc), ih]

end Text

namespace Disk

def Writable (disk : Disk) (path : Utf16) : Prop :=
  ∃ bytes later, disk.write path bytes = .ok later

variable {disk : Disk} {path : Utf16}

lemma Writable.exists_write (h : disk.Writable path) (bytes : List UInt8) :
    ∃ later, disk.write path bytes = .ok later := by
  obtain ⟨_, _, hw⟩ := h
  obtain ⟨parent, name, location, ht, hslash, hc, hd, -⟩ := exists_target_of_write hw
  refine ⟨disk.put location (.file bytes), ?_⟩
  rw [write, ht]
  simp [hslash, hc, hd]

end Disk

namespace Discovery

lemma readSource_of_writeArtifact {disk later : Disk} {path : Utf16} {text : Text}
    (h : Run.writeArtifact disk path (.ofText text) = (later, none)) :
    readSource later path = .ok text.unifyNewlines := by
  rw [readSource, Run.readText_of_writeArtifact h]

lemma readSource_of_read {disk : Disk} {path : Utf16} {bytes : List UInt8}
    (h : disk.read path = .ok bytes) :
    readSource disk path =
      ((Text.Utf8.decode bytes).map Text.unifyNewlines).mapError Failure.undecodable := by
  rw [readSource, Disk.readText, h, Except.map]
  cases Text.Utf8.decode bytes with
  | error fault => rfl
  | ok s => rfl

lemma readSource_eq_ok_iff {disk : Disk} {path : Utf16} {bytes : List UInt8}
    (hr : disk.read path = .ok bytes) {text : Text} :
    readSource disk path = .ok text ↔
      ∃ s, bytes = Text.Utf8.encode s ∧ text = s.withLineFeeds := by
  rw [readSource_of_read hr]
  constructor
  · intro h
    cases hd : Text.Utf8.decode bytes with
    | error fault =>
      rw [hd] at h
      cases h
    | ok s =>
      rw [hd] at h
      refine ⟨s, Text.Utf8.decode_eq_ok_iff.mp hd, ?_⟩
      rw [← Text.unifyNewlines_eq_withLineFeeds]
      exact (Except.ok.inj h).symm
  · rintro ⟨s, rfl, rfl⟩
    rw [Text.Utf8.decode_encode, ← Text.unifyNewlines_eq_withLineFeeds]
    rfl

lemma readSource_eq_error {disk : Disk} {path : Utf16} {bytes : List UInt8}
    (hr : disk.read path = .ok bytes) (h : ∀ s, bytes ≠ Text.Utf8.encode s) :
    ∃ fault, readSource disk path = .error (.undecodable fault) ∧
      IsGreatest {n | ∃ s, Text.Utf8.encode s <+: bytes ∧ n = (Text.Utf8.encode s).length}
        fault.position := by
  obtain ⟨fault, hd, hgreatest⟩ := Text.Utf8.decode_eq_error h
  refine ⟨fault, ?_, hgreatest⟩
  rw [readSource_of_read hr, hd]
  rfl

theorem readSource_exact (disk : Disk) (path : Utf16) :
    (disk.Writable path → ∀ text : Text, ∃ later,
      Run.writeArtifact disk path (.ofText text) = (later, none) ∧
        readSource later path = .ok text.withLineFeeds ∧
        (readSource later path = .ok text ↔ '\r' ∉ text)) ∧
    ∀ bytes, disk.read path = .ok bytes →
      (∀ text, readSource disk path = .ok text ↔
        ∃ s, bytes = Text.Utf8.encode s ∧ text = s.withLineFeeds) ∧
      ((∀ s, bytes ≠ Text.Utf8.encode s) → ∃ fault,
        readSource disk path = .error (.undecodable fault) ∧
          IsGreatest {n | ∃ s, Text.Utf8.encode s <+: bytes ∧ n = (Text.Utf8.encode s).length}
            fault.position) := by
  constructor
  · intro hwritable text
    obtain ⟨later, hw⟩ := hwritable.exists_write (Text.Utf8.encode text)
    have hartifact := Run.writeArtifact_eq_none_iff.mpr ⟨_, Utf16.encode_ofText text, hw⟩
    have hread := readSource_of_writeArtifact hartifact
    refine ⟨later, hartifact, by rw [hread, Text.unifyNewlines_eq_withLineFeeds], ?_⟩
    rw [hread, Except.ok.injEq]
    exact Text.unifyNewlines_eq_self_iff
  · intro bytes hr
    exact ⟨fun text => readSource_eq_ok_iff hr, readSource_eq_error hr⟩

def tornDisk : Disk where
  entries := [([⟨[0x74, 0x6f, 0x72, 0x6e], rfl⟩], .file [0x0d, 0x61, 0xe2, 0x82])]
  home := ⟨[], 0⟩
  nodup := by decide

theorem readSource_exact_torn :
    tornDisk.Writable (.ofString "torn") ∧
    (∃ later, Run.writeArtifact tornDisk (.ofString "torn") (.ofString "a\r\r\n") = (later, none) ∧
      readSource later (.ofString "torn") = .ok "a\n\n".toList) ∧
    tornDisk.read (.ofString "torn") = .ok [0x0d, 0x61, 0xe2, 0x82] ∧
    IsGreatest {n | ∃ s, Text.Utf8.encode s <+: [0x0d, 0x61, 0xe2, 0x82] ∧
      n = (Text.Utf8.encode s).length} 2 := by
  have hwritable : tornDisk.Writable (.ofString "torn") := ⟨[], _, rfl⟩
  have hread : tornDisk.read (.ofString "torn") = .ok [0x0d, 0x61, 0xe2, 0x82] := by decide
  have hrefused : readSource tornDisk (.ofString "torn") =
      .error (.undecodable ⟨.unexpectedEnd, 2, 0xe2, 2⟩) := by decide
  have hbytes : ∀ s, [0x0d, 0x61, 0xe2, 0x82] ≠ Text.Utf8.encode s := by
    intro s hs
    cases Text.Utf8.decode_eq_ok_iff.mpr hs
  obtain ⟨hwrite, hstored⟩ := readSource_exact tornDisk (.ofString "torn")
  obtain ⟨later, hw, ht, -⟩ := hwrite hwritable "a\r\r\n".toList
  obtain ⟨fault, hf, hgreatest⟩ := (hstored _ hread).2 hbytes
  obtain rfl := Failure.undecodable.inj (Except.error.inj (hrefused.symm.trans hf))
  exact ⟨hwritable, ⟨later, hw, ht⟩, hread, hgreatest⟩

end Discovery

end ComponentCompiler
