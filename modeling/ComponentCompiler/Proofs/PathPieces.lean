import ComponentCompiler.Disk.Lookup
import ComponentCompiler.Proofs.Bytes
import ComponentCompiler.Proofs.Searching

/-! Paths taken apart at their slashes. The bytes of a path are those of its pieces, so the steps of
a longer path begin with the steps of a shorter one, and every name that is met on a path is one of
its pieces. -/

namespace ComponentCompiler

namespace Text

lemma splitAt_append_cons {α : Type} [DecidableEq α] (sep : α) (s t : List α) :
    splitAt sep (s ++ sep :: t) = splitAt sep s ++ splitAt sep t := by
  simp only [splitAt_eq_splitOn]
  exact List.splitOn_append_cons_self s t

lemma splitAt_of_notMem {α : Type} [DecidableEq α] {sep : α} {s : List α} (h : sep ∉ s) :
    splitAt sep s = [s] := by
  rw [splitAt_eq_splitOn]
  exact List.splitOn_eq_singleton h

end Text

namespace Utf16

variable {byte? : UInt16 → Option UInt8} {pos : Nat} {bytes : List UInt8}

lemma points_append {s t : Utf16} (h : ∀ v ∈ t.head?, isTrailing v = false) :
    points (s ++ t) = points s ++ points t := by
  fun_induction points s with
  | case1 => rfl
  | case2 u =>
    cases t with
    | nil => rfl
    | cons v t =>
      have hv : isTrailing v = false := h v rfl
      simp [points, hv]
  | case3 u v rest hp ih => simp [points, hp, ih]
  | case4 u v rest hp ih =>
    rw [List.cons_append] at ih
    simp [points, hp, ih]

def pointBytes? (byte? : UInt16 → Option UInt8) : Point → Option (List UInt8)
  | .scalar c => some (String.utf8EncodeChar c)
  | .half u => (byte? u).map fun b => [b]

lemma encodeFrom_cons_eq_ok_iff {p : Point} {ps : List Point} :
    encodeFrom byte? pos (p :: ps) = .ok bytes ↔ ∃ part rest, pointBytes? byte? p = some part ∧
      encodeFrom byte? (pos + 1) ps = .ok rest ∧ bytes = part ++ rest := by
  cases p with
  | scalar c =>
    rw [encodeFrom, pointBytes?]
    cases encodeFrom byte? (pos + 1) ps <;> simp [Except.map, eq_comm]
  | half u =>
    rw [encodeFrom, pointBytes?]
    cases byte? u with
    | none => simp
    | some b => cases encodeFrom byte? (pos + 1) ps <;> simp [Except.map, eq_comm]

lemma encodeFrom_eq_ok_iff_zero {ps : List Point} :
    encodeFrom byte? pos ps = .ok bytes ↔ encodeFrom byte? 0 ps = .ok bytes := by
  have hmove : ∀ pos pos', encodeFrom byte? pos ps = .ok bytes →
      encodeFrom byte? pos' ps = .ok bytes := by
    induction ps generalizing bytes with
    | nil => exact fun _ _ h => h
    | cons p ps ih =>
      intro pos pos' h
      obtain ⟨part, rest, hp, hr, rfl⟩ := encodeFrom_cons_eq_ok_iff.mp h
      exact encodeFrom_cons_eq_ok_iff.mpr ⟨part, rest, hp, ih _ _ hr, rfl⟩
  exact ⟨hmove pos 0, hmove 0 pos⟩

lemma encodeFrom_append_eq_ok_iff {ps qs : List Point} :
    encodeFrom byte? 0 (ps ++ qs) = .ok bytes ↔ ∃ x y, encodeFrom byte? 0 ps = .ok x ∧
      encodeFrom byte? 0 qs = .ok y ∧ bytes = x ++ y := by
  induction ps generalizing bytes with
  | nil => simp [encodeFrom]
  | cons p ps ih =>
    rw [List.cons_append, encodeFrom_cons_eq_ok_iff]
    constructor
    · rintro ⟨part, rest, hp, hr, rfl⟩
      obtain ⟨x, y, hx, hy, rfl⟩ := ih.mp (encodeFrom_eq_ok_iff_zero.mp hr)
      refine ⟨part ++ x, y, encodeFrom_cons_eq_ok_iff.mpr ⟨part, x, hp, ?_, rfl⟩, hy, by simp⟩
      exact encodeFrom_eq_ok_iff_zero.mpr hx
    · rintro ⟨_, y, hx, hy, rfl⟩
      obtain ⟨part, x, hp, hx', rfl⟩ := encodeFrom_cons_eq_ok_iff.mp hx
      refine ⟨part, x ++ y, hp, encodeFrom_eq_ok_iff_zero.mpr ?_, by simp⟩
      exact ih.mpr ⟨x, y, encodeFrom_eq_ok_iff_zero.mp hx', hy, rfl⟩

lemma encodePath_append_slash {s t : Utf16} :
    encodePath (s ++ Path.slash :: t) = .ok bytes ↔ ∃ x y, encodePath s = .ok x ∧
      encodePath t = .ok y ∧ bytes = x ++ Name.slash :: y := by
  have hslash : points (Path.slash :: t) = .scalar '/' :: points t :=
    points_cons_of_not_leading (by decide) t
  have hcons : ∀ z, encodeFrom byteOfHalf? 0 (.scalar '/' :: points t) = .ok z ↔
      ∃ y, encodePath t = .ok y ∧ z = Name.slash :: y := by
    intro z
    rw [encodeFrom_cons_eq_ok_iff]
    constructor
    · rintro ⟨part, y, hp, hy, rfl⟩
      obtain rfl := Option.some.inj hp
      exact ⟨y, encodeFrom_eq_ok_iff_zero.mp hy, rfl⟩
    · rintro ⟨y, hy, rfl⟩
      exact ⟨_, y, rfl, encodeFrom_eq_ok_iff_zero.mpr hy, rfl⟩
  rw [encodePath, points_append (by rintro v ⟨⟩; decide), hslash, encodeFrom_append_eq_ok_iff]
  constructor
  · rintro ⟨x, z, hx, hz, rfl⟩
    obtain ⟨y, hy, rfl⟩ := (hcons z).mp hz
    exact ⟨x, y, hx, hy, rfl⟩
  · rintro ⟨x, y, hx, hy, rfl⟩
    exact ⟨x, _, hx, (hcons _).mpr ⟨y, hy, rfl⟩, rfl⟩

lemma toNat_of_mem_utf8EncodeChar {c : Char} {b : UInt8} (hb : b ∈ String.utf8EncodeChar c)
    (hlow : b.toNat < 0x80) : c.toNat = b.toNat := by
  have hbyte : ∀ n, n < 0x100 → (UInt8.ofNat n).toNat = n := fun n hn =>
    (UInt8.toNat_ofNat' ..).trans (Nat.mod_eq_of_lt hn)
  have hv : c.val.toNat = c.toNat := rfl
  have hc := toNat_char_lt c
  simp only [String.utf8EncodeChar, hv] at hb
  split_ifs at hb <;>
    simp only [List.mem_cons, List.not_mem_nil, or_false] at hb <;>
    rcases hb with rfl | rfl | rfl | rfl <;>
    rw [hbyte _ (by omega)] at hlow ⊢ <;> omega

lemma utf8EncodeChar_of_lt {c : Char} (h : c.toNat < 0x80) :
    String.utf8EncodeChar c = [UInt8.ofNat c.toNat] := by
  have hv : c.val.toNat = c.toNat := rfl
  rw [String.utf8EncodeChar, hv, if_pos (by omega)]

lemma le_of_byteOfHalf? {u : UInt16} {b : UInt8} (h : byteOfHalf? u = some b) :
    0x80 ≤ b.toNat ∧ 0xdc80 ≤ u.toNat := by
  rw [byteOfHalf?] at h
  split at h
  · next hu =>
    obtain rfl := Option.some.inj h
    simp only [Bool.and_eq_true, decide_eq_true_eq, UInt16.le_iff_toNat_le] at hu
    change 0xdc80 ≤ u.toNat ∧ u.toNat ≤ 0xdcff at hu
    have hsub : (u - 0xdc00).toNat = u.toNat - 0xdc00 :=
      UInt16.toNat_sub_of_le _ _ (UInt16.le_iff_toNat_le.mpr (Nat.le_trans (by decide) hu.1))
    rw [UInt16.toNat_toUInt8, hsub]
    omega
  · cases h

lemma mem_pointBytes?_iff {d : Char} (hd : d.toNat < 0x80) {p : Point} {part : List UInt8}
    (h : pointBytes? byteOfHalf? p = some part) :
    UInt8.ofNat d.toNat ∈ part ↔ unit d ∈ spelling p := by
  have hbyte : (UInt8.ofNat d.toNat).toNat = d.toNat :=
    (UInt8.toNat_ofNat' ..).trans (Nat.mod_eq_of_lt (by omega))
  cases p with
  | scalar c =>
    obtain rfl := Option.some.inj h
    have hunit : unit d ∈ spelling (.scalar c) ↔ d = c := by
      have hmem := unit_mem_ofText_iff (d := d) (by omega) (s := [c])
      simpa [ofText, spelling] using hmem
    rw [hunit]
    constructor
    · intro hm
      have hc := toNat_of_mem_utf8EncodeChar hm (by omega)
      exact Char.toNat_inj.mp (hbyte.symm.trans hc.symm)
    · rintro rfl
      rw [utf8EncodeChar_of_lt hd]
      exact List.mem_singleton.mpr rfl
  | half u =>
    obtain ⟨b, hb, rfl⟩ := Option.map_eq_some_iff.mp h
    obtain ⟨hlow, hu⟩ := le_of_byteOfHalf? hb
    have hunit := toNat_unit (d := d) (by omega)
    simp only [spelling, List.mem_singleton]
    constructor
    · rintro rfl
      omega
    · rintro rfl
      omega

lemma mem_encodeFrom_iff {d : Char} (hd : d.toNat < 0x80) {ps : List Point}
    (h : encodeFrom byteOfHalf? pos ps = .ok bytes) :
    UInt8.ofNat d.toNat ∈ bytes ↔ unit d ∈ ps.flatMap spelling := by
  induction ps generalizing pos bytes with
  | nil =>
    cases h
    simp
  | cons p ps ih =>
    obtain ⟨part, rest, hp, hr, rfl⟩ := encodeFrom_cons_eq_ok_iff.mp h
    rw [List.mem_append, List.flatMap_cons, List.mem_append, mem_pointBytes?_iff hd hp, ih hr]

lemma mem_encodePath_iff {d : Char} (hd : d.toNat < 0x80) {path : Utf16}
    (h : encodePath path = .ok bytes) : UInt8.ofNat d.toNat ∈ bytes ↔ unit d ∈ path := by
  have hpoints := mem_encodeFrom_iff hd h
  rwa [flatMap_spelling_points] at hpoints

end Utf16

namespace Name

lemma encodePath_text (name : Name) : Utf16.encodePath name.text = .ok name.bytes :=
  Utf16.encodePath_decodePath name.bytes

lemma notMem_bytes (name : Name) : slash ∉ name.bytes ∧ 0 ∉ name.bytes := by
  have hv := name.valid
  simp only [isValid, Bool.and_eq_true, Bool.not_eq_true', List.contains_eq_mem,
    decide_eq_false_iff_not] at hv
  exact ⟨hv.1.2, hv.2⟩

lemma isAbsolute_text (name : Name) : Path.isAbsolute name.text = false := by
  rw [Path.isAbsolute, decide_eq_false_iff_not]
  intro hs
  exact name.notMem_bytes.1
    ((Utf16.mem_encodePath_iff (d := '/') (by decide) name.encodePath_text).mpr
      (List.mem_of_head? hs))

end Name

namespace Path

def Mentions (path : Utf16) (name : Name) : Prop :=
  ∃ piece ∈ Text.splitAt slash path, Utf16.encodePath piece = .ok name.bytes

lemma exists_piece {path : Utf16} {bytes part : List UInt8} (h : Utf16.encodePath path = .ok bytes)
    (hp : part ∈ Text.splitAt Name.slash bytes) :
    ∃ piece ∈ Text.splitAt slash path, Utf16.encodePath piece = .ok part := by
  induction hn : path.length using Nat.strong_induction_on generalizing path bytes with
  | _ n ih =>
    by_cases hs : slash ∈ path
    · obtain ⟨s, t, rfl⟩ := List.append_of_mem hs
      obtain ⟨x, y, hx, hy, rfl⟩ := Utf16.encodePath_append_slash.mp h
      simp only [List.length_append, List.length_cons] at hn
      rw [Text.splitAt_append_cons] at hp ⊢
      rcases List.mem_append.mp hp with hp | hp
      · obtain ⟨piece, hm, he⟩ := ih s.length (by omega) hx hp rfl
        exact ⟨piece, List.mem_append_left _ hm, he⟩
      · obtain ⟨piece, hm, he⟩ := ih t.length (by omega) hy hp rfl
        exact ⟨piece, List.mem_append_right _ hm, he⟩
    · have hb : Name.slash ∉ bytes := fun hm =>
        hs ((Utf16.mem_encodePath_iff (d := '/') (by decide) h).mp hm)
      rw [Text.splitAt_of_notMem hb, List.mem_singleton] at hp
      exact ⟨path, by rw [Text.splitAt_of_notMem hs]; exact List.mem_singleton.mpr rfl, hp ▸ h⟩

lemma eq_bytes_of_ofPiece {piece : List UInt8} {name : Name} (h : Step.ofPiece piece = .down name) :
    piece = name.bytes := by
  rw [Step.ofPiece] at h
  split at h
  · cases h
  · split at h
    · next name' hn =>
      cases h
      rw [Name.ofBytes?] at hn
      split at hn
      · cases hn
        rfl
      · cases hn
    · cases h

lemma mentions_of_mem_steps {path : Utf16} {bytes : List UInt8} {name : Name}
    (h : Utf16.encodePath path = .ok bytes) (hs : .down name ∈ steps bytes) :
    Mentions path name := by
  obtain ⟨piece, hp, hd⟩ := List.mem_map.mp hs
  obtain rfl := eq_bytes_of_ofPiece hd
  exact exists_piece h (List.mem_filter.mp hp).1

lemma mentions_append_iff {s t : Utf16} {name : Name} :
    Mentions (s ++ slash :: t) name ↔ Mentions s name ∨ Mentions t name := by
  simp only [Mentions, Text.splitAt_append_cons, List.mem_append, or_and_right, exists_or]

lemma steps_append_slash (x y : List UInt8) :
    steps (x ++ Name.slash :: y) = steps x ++ steps y := by
  rw [steps, Text.splitAt_append_cons, List.filter_append, List.map_append]
  rfl

lemma steps_bytes (name : Name) : steps name.bytes = [.down name] := by
  have hv := name.valid
  simp only [Name.isValid, Bool.and_eq_true, decide_eq_true_eq] at hv
  obtain ⟨⟨⟨⟨hne, -⟩, hup⟩, -⟩, -⟩ := hv
  have hname : Name.ofBytes? name.bytes = some name := by
    rw [Name.ofBytes?, dif_pos name.valid]
  rw [steps, Text.splitAt_of_notMem name.notMem_bytes.1]
  simp [hne, Step.ofPiece, hup, hname]

/-- A piece of a path as a directory lists it. -/
def listed (piece : Utf16) : Utf16 :=
  match Utf16.encodePath piece with
  | .ok bytes => .decodePath bytes
  | .error _ => piece

lemma listed_ofText (s : Text) : listed (.ofText s) = .ofText s := by
  rw [listed, Utf16.encodePath_ofText]
  exact Utf16.decodePath_encode s

lemma listed_of_mem_splitAt {s : Text} {piece : Utf16}
    (h : piece ∈ Text.splitAt slash (Utf16.ofText s)) : listed piece = piece := by
  induction hn : s.length using Nat.strong_induction_on generalizing s with
  | _ n ih =>
    by_cases hs : '/' ∈ s
    · obtain ⟨a, b, rfl⟩ := List.append_of_mem hs
      simp only [List.length_append, List.length_cons] at hn
      rw [Utf16.ofText_append, Utf16.ofText_cons_unit (by decide)] at h
      rcases List.mem_append.mp (Text.splitAt_append_cons slash _ _ ▸ h) with h | h
      · exact ih a.length (by omega) h rfl
      · exact ih b.length (by omega) h rfl
    · have hu : slash ∉ Utf16.ofText s := fun hm =>
        hs ((Utf16.unit_mem_ofText_iff (by decide)).mp hm)
      rw [Text.splitAt_of_notMem hu, List.mem_singleton] at h
      rw [h, listed_ofText]

lemma Mentions.exists_listed {path : Utf16} {name : Name} (h : Mentions path name) :
    ∃ piece ∈ Text.splitAt slash path, listed piece = name.text := by
  obtain ⟨piece, hm, he⟩ := h
  exact ⟨piece, hm, by rw [listed, he]; rfl⟩

lemma endsInSlash_iff {path : Utf16} : endsInSlash path = true ↔ ∃ s, path = s ++ [slash] := by
  rw [endsInSlash, decide_eq_true_iff, List.getLast?_eq_some_iff]

lemma join_eq {dir name : Utf16} (hd : dir ≠ []) (hn : isAbsolute name = false) :
    ∃ s, join dir name = s ++ slash :: name ∧ (dir = s ∨ dir = s ++ [slash]) := by
  rw [join, if_neg (by simp [hd, hn])]
  split
  · next hs =>
    obtain ⟨s, rfl⟩ := endsInSlash_iff.mp hs
    exact ⟨s, by simp, Or.inr rfl⟩
  · exact ⟨dir, rfl, Or.inl rfl⟩

lemma mentions_of_join {dir path : Utf16} {name : Name} (h : Mentions (join dir path) name) :
    Mentions dir name ∨ Mentions path name := by
  by_cases hjoin : dir = [] ∨ isAbsolute path = true
  · rw [join, if_pos hjoin] at h
    exact Or.inr h
  · obtain ⟨hd, hp⟩ := not_or.mp hjoin
    obtain ⟨s, hs, rfl | rfl⟩ := join_eq hd (Bool.eq_false_iff.mpr hp)
    · exact mentions_append_iff.mp (hs ▸ h)
    · exact (mentions_append_iff.mp (hs ▸ h)).imp_left fun hm => mentions_append_iff.mpr (Or.inl hm)

end Path

namespace Disk

variable {bytes : List UInt8}

lemma pathBytes_eq_ok_iff {path : Utf16} :
    pathBytes path = .ok bytes ↔ Utf16.encodePath path = .ok bytes ∧ 0 ∉ bytes ∧ bytes ≠ [] ∧
      bytes.length ≤ maxPath := by
  rw [pathBytes]
  cases Utf16.encodePath path with
  | error fault => simp
  | ok all =>
    simp only [List.contains_eq_mem, decide_eq_true_eq, Except.ok.injEq]
    split_ifs with hnull hnil hlong
    · simp only [false_iff]
      rintro ⟨rfl, h, -⟩
      exact h hnull
    · simp only [false_iff]
      rintro ⟨rfl, -, h, -⟩
      exact h hnil
    · simp only [false_iff]
      rintro ⟨rfl, -, -, h⟩
      omega
    · simp only [Except.ok.injEq]
      constructor
      · rintro rfl
        exact ⟨rfl, hnull, hnil, by omega⟩
      · exact fun h => h.1

lemma encodePath_ne_nil {path : Utf16} (hn : path ≠ []) (h : Utf16.encodePath path = .ok bytes) :
    bytes ≠ [] := by
  have hpart : ∀ p part, Utf16.pointBytes? Utf16.byteOfHalf? p = some part → part ≠ [] := by
    rintro (c | u) part hp
    · obtain rfl := Option.some.inj hp
      exact List.ne_nil_of_length_pos (by rw [String.length_utf8EncodeChar]; exact c.utf8Size_pos)
    · obtain ⟨b, -, rfl⟩ := Option.map_eq_some_iff.mp hp
      simp
  rw [Utf16.encodePath] at h
  cases hps : path.points with
  | nil =>
    have hpath := Utf16.flatMap_spelling_points path
    rw [hps] at hpath
    exact (hn hpath.symm).elim
  | cons p ps =>
    rw [hps] at h
    obtain ⟨part, rest, hp, -, rfl⟩ := Utf16.encodeFrom_cons_eq_ok_iff.mp h
    simp [hpart p part hp]

lemma pathBytes_of_append {s t : Utf16} (hs : s ≠ [])
    (h : pathBytes (s ++ Path.slash :: t) = .ok bytes) :
    ∃ x y, pathBytes s = .ok x ∧ Utf16.encodePath t = .ok y ∧
      Path.steps bytes = Path.steps x ++ Path.steps y := by
  obtain ⟨he, hnull, -, hlen⟩ := pathBytes_eq_ok_iff.mp h
  obtain ⟨x, y, hx, hy, rfl⟩ := Utf16.encodePath_append_slash.mp he
  simp only [List.length_append, List.length_cons] at hlen
  refine ⟨x, y, pathBytes_eq_ok_iff.mpr ⟨hx, ?_, encodePath_ne_nil hs hx, by omega⟩, hy,
    Path.steps_append_slash x y⟩
  exact fun h0 => hnull (List.mem_append_left _ h0)

lemma pathBytes_of_join {dir name : Utf16} (hd : dir ≠ []) (hn : Path.isAbsolute name = false)
    (h : pathBytes (Path.join dir name) = .ok bytes) :
    ∃ x y, pathBytes dir = .ok x ∧ Utf16.encodePath name = .ok y ∧
      Path.steps bytes = Path.steps x ++ Path.steps y := by
  obtain ⟨s, hs, rfl | rfl⟩ := Path.join_eq hd hn
  · exact pathBytes_of_append hd (hs ▸ h)
  · rw [hs] at h
    obtain ⟨he, hnull, -, hlen⟩ := pathBytes_eq_ok_iff.mp h
    obtain ⟨x, y, hx, hy, rfl⟩ := Utf16.encodePath_append_slash.mp he
    have hx' : Utf16.encodePath (s ++ [Path.slash]) = .ok (x ++ [Name.slash]) :=
      Utf16.encodePath_append_slash.mpr ⟨x, [], hx, rfl, rfl⟩
    simp only [List.length_append, List.length_cons] at hlen
    refine ⟨_, y, pathBytes_eq_ok_iff.mpr ⟨hx', ?_, by simp, by simp; omega⟩, hy, ?_⟩
    · intro h0
      rcases List.mem_append.mp h0 with h0 | h0
      · exact hnull (List.mem_append_left _ h0)
      · exact absurd h0 (by decide)
    · rw [Path.steps_append_slash, Path.steps_append_slash]
      simp [Path.steps, Text.splitAt]

lemma start_join (disk : Disk) {dir name : Utf16} (hd : dir ≠ [])
    (hn : Path.isAbsolute name = false) : disk.start (Path.join dir name) = disk.start dir := by
  obtain ⟨u, rest, rfl⟩ := List.exists_cons_of_ne_nil hd
  have hhead : Path.isAbsolute (Path.join (u :: rest) name) = Path.isAbsolute (u :: rest) := by
    rw [Path.join, if_neg (by simp [hn])]
    split <;> rfl
  rw [start, start, hhead]

end Disk

end ComponentCompiler
