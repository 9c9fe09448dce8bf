import ComponentCompiler.Proofs.Literals

/-! Literals as JSON and scripts define them, whoever reads them: the reader of literals accepts
just what JSON does, and a literal that was written can be read in one way only, by scripts as well,
whatever text follows it. -/

namespace ComponentCompiler.Text.Literal

open Utf16 (ofChar ofText text?)

structure Dialect where
  item? : Text → Option (Utf16 × Text)
  quote : ∀ s, item? ('"' :: s) = none

namespace Dialect

inductive Reads (dialect : Dialect) : Text → Utf16 → Text → Prop
  | close (rest : Text) : Reads dialect ('"' :: rest) [] rest
  | item {s t rest : Text} {units more : Utf16} (h : dialect.item? s = some (units, t))
      (hm : Reads dialect t more rest) : Reads dialect s (units ++ more) rest

variable {dialect : Dialect} {s t rest : Text} {units : Utf16}

lemma reads_close_iff : dialect.Reads ('"' :: s) units rest ↔ units = [] ∧ rest = s := by
  constructor
  · intro h
    generalize ht : '"' :: s = t at h
    cases h with
    | close rest => exact ⟨rfl, (List.cons.inj ht).2.symm⟩
    | item h _ =>
      rw [← ht, dialect.quote] at h
      cases h
  · rintro ⟨rfl, rfl⟩
    exact .close _

lemma reads_item_iff {front : Utf16} (h : dialect.item? s = some (front, t)) :
    dialect.Reads s units rest ↔ ∃ more, dialect.Reads t more rest ∧ units = front ++ more := by
  constructor
  · intro hr
    cases hr with
    | close rest =>
      rw [dialect.quote] at h
      cases h
    | item h' hm =>
      cases h.symm.trans h'
      exact ⟨_, hm, rfl⟩
  · rintro ⟨more, hm, rfl⟩
    exact .item h hm

lemma Reads.ne_nil (hnil : dialect.item? [] = none) (h : dialect.Reads s units rest) : s ≠ [] := by
  rintro rfl
  cases h with
  | item h _ => cases hnil.symm.trans h

lemma reads_units_iff (hunit : ∀ u s, dialect.item? (encodeUnit u ++ s) = some ([u], s))
    (written : Utf16) :
    dialect.Reads (written.flatMap encodeUnit ++ '"' :: s) units rest ↔
      units = written ∧ rest = s := by
  induction written generalizing units with
  | nil => exact reads_close_iff
  | cons u written ih =>
    rw [List.flatMap_cons, List.append_assoc, reads_item_iff (hunit u _)]
    constructor
    · rintro ⟨more, hm, rfl⟩
      obtain ⟨rfl, rfl⟩ := ih.mp hm
      exact ⟨rfl, rfl⟩
    · rintro ⟨rfl, rfl⟩
      exact ⟨written, ih.mpr ⟨rfl, rfl⟩, rfl⟩

end Dialect

lemma content_simple (opened : Nat) {e c : Char} (s : Text) (he : simpleEscape? e = some c) :
    content opened ('\\' :: e :: s) = push (ofChar c) (content opened s) := by
  have hu : e ≠ 'u' := by
    rintro rfl
    cases he
  simp [content, hu, he]

lemma content_unit (opened : Nat) {a b c d : Char} {n : Nat} {s : Text}
    (hn : hexValue4? a b c d = some n) (hs : s ≠ []) :
    content opened ('\\' :: 'u' :: a :: b :: c :: d :: s) =
      push [n.toUInt16] (content opened s) := by
  obtain ⟨next, s, rfl⟩ := List.exists_cons_of_ne_nil hs
  rw [content.eq_def]
  simp [hn]

def jsonItem? : Text → Option (Utf16 × Text)
  | '\\' :: 'u' :: a :: b :: c :: d :: s =>
    (hexValue4? a b c d).map fun n => ([n.toUInt16], s)
  | '\\' :: e :: s => (simpleEscape? e).map fun c => (ofChar c, s)
  | c :: s => if c = '"' ∨ c = '\\' ∨ c.toNat < 0x20 then none else some (ofChar c, s)
  | [] => none

def json : Dialect where
  item? := jsonItem?
  quote _ := rfl

def scriptEscape? : Char → Option Char
  | 'b' => some '\x08'
  | 'f' => some '\x0c'
  | 'n' => some '\n'
  | 'r' => some '\r'
  | 't' => some '\t'
  | 'v' => some '\x0b'
  | e => if e.isDigit ∨ e = 'x' ∨ e = 'u' then none else some e

def lineEnds : List Char := ['\n', '\r', '\u2028', '\u2029']

def hexValues? (digits : Text) : Option Nat :=
  digits.foldlM (fun n digit => (hexValue? digit).map (n * 16 + ·)) 0

def ofCode (n : Nat) : Utf16 :=
  if n < 0x10000 then [n.toUInt16]
  else [(0xd800 + (n - 0x10000) / 0x400).toUInt16, (0xdc00 + (n - 0x10000) % 0x400).toUInt16]

def codePoint? (s : Text) : Option (Utf16 × Text) :=
  match cut? ['\x7d'] s with
  | some (digits, rest) =>
    match hexValues? digits with
    | some n => if digits = [] ∨ 0x10ffff < n then none else some (ofCode n, rest)
    | none => none
  | none => none

/-- The strict rules of scripts for what stands between double quotes: an escaped line end stands
for nothing, and an escaped zero for the null character unless another digit follows. -/
def scriptItem? : Text → Option (Utf16 × Text)
  | '\\' :: 'u' :: '\x7b' :: s => codePoint? s
  | '\\' :: 'u' :: a :: b :: c :: d :: s =>
    (hexValue4? a b c d).map fun n => ([n.toUInt16], s)
  | '\\' :: 'x' :: a :: b :: s => (hexValues? [a, b]).map fun n => ([n.toUInt16], s)
  | '\\' :: '\r' :: '\n' :: s => some ([], s)
  | '\\' :: e :: s =>
    if e ∈ lineEnds then some ([], s)
    else if e = '0' ∧ ¬ s.head?.any Char.isDigit then some ([0], s)
    else (scriptEscape? e).map fun c => (ofChar c, s)
  | c :: s => if c ∈ ['"', '\\', '\n', '\r'] then none else some (ofChar c, s)
  | [] => none

def script : Dialect where
  item? := scriptItem?
  quote _ := rfl

lemma jsonItem?_plain {c : Char} (hq : c ≠ '"') (hb : c ≠ '\\') (hc : 0x20 ≤ c.toNat) (s : Text) :
    jsonItem? (c :: s) = some (ofChar c, s) := by
  have hlow : ¬ c.toNat < 0x20 := by omega
  rw [jsonItem?.eq_def]
  split <;> simp_all

lemma jsonItem?_simple {e c : Char} (he : simpleEscape? e = some c) (s : Text) :
    jsonItem? ('\\' :: e :: s) = some (ofChar c, s) := by
  have hu : e ≠ 'u' := by
    rintro rfl
    cases he
  simp [jsonItem?, hu, he]

lemma jsonItem?_encodeUnit (u : UInt16) (s : Text) :
    jsonItem? (encodeUnit u ++ s) = some ([u], s) := by
  rw [encodeUnit]
  split_ifs with h₁ h₂ h₃ h₄ h₅ h₆ h₇ h₈
  · subst h₁; rfl
  · subst h₂; rfl
  · subst h₃; rfl
  · subst h₄; rfl
  · subst h₅; rfl
  · subst h₆; rfl
  · subst h₇; rfl
  · obtain ⟨hc, hp⟩ := toNat_of_printable h₈
    have hne : ∀ c, u ≠ Utf16.unit c → Char.ofNat u.toNat ≠ c := by
      rintro c hu rfl
      exact hu (by simp [Utf16.unit, hc])
    rw [List.singleton_append, jsonItem?_plain (hne _ h₁) (hne _ h₂) hp.1,
      Utf16.ofChar_of_toNat hc]
  · have hv := hexValue4?_digits u.toNat_lt
    simp [escapeUnit, hex4, jsonItem?, hv]

lemma jsonItem?_cases {s rest : Text} {units : Utf16} :
    jsonItem? s = some (units, rest) →
    (∃ c, s = c :: rest ∧ c ≠ '"' ∧ c ≠ '\\' ∧ 0x20 ≤ c.toNat ∧ units = ofChar c) ∨
    (∃ e c, s = '\\' :: e :: rest ∧ simpleEscape? e = some c ∧ units = ofChar c) ∨
    ∃ a b c d n, s = '\\' :: 'u' :: a :: b :: c :: d :: rest ∧ hexValue4? a b c d = some n ∧
      units = [n.toUInt16] := by
  fun_cases jsonItem? s with
  | case1 a b c d s =>
    intro h
    obtain ⟨n, hn, he⟩ := Option.map_eq_some_iff.mp h
    obtain ⟨rfl, rfl⟩ := Prod.mk.inj he
    exact Or.inr (Or.inr ⟨a, b, c, d, n, rfl, hn, rfl⟩)
  | case2 e s _ =>
    intro h
    obtain ⟨c, hc, he⟩ := Option.map_eq_some_iff.mp h
    obtain ⟨rfl, rfl⟩ := Prod.mk.inj he
    exact Or.inr (Or.inl ⟨e, c, rfl, hc, rfl⟩)
  | case3 c s _ _ hc => exact nofun
  | case4 c s _ _ hc =>
    intro h
    obtain ⟨rfl, rfl⟩ := Prod.mk.inj (Option.some.inj h)
    obtain ⟨hq, hb, hlow⟩ : c ≠ '"' ∧ c ≠ '\\' ∧ ¬ c.toNat < 0x20 := by simpa using hc
    exact Or.inl ⟨c, rfl, hq, hb, Nat.le_of_not_lt hlow, rfl⟩
  | case5 => exact nofun

lemma scriptItem?_plain {c : Char} (hc : c ∉ ['"', '\\', '\n', '\r']) (s : Text) :
    scriptItem? (c :: s) = some (ofChar c, s) := by
  have hb : c ≠ '\\' := by
    rintro rfl
    exact hc (by decide)
  rw [scriptItem?.eq_def]
  split <;> simp_all

lemma scriptItem?_escape {e c : Char} (he : scriptEscape? e = some c) (hl : e ∉ lineEnds)
    (s : Text) : scriptItem? ('\\' :: e :: s) = some (ofChar c, s) := by
  have hne : e ≠ 'u' ∧ e ≠ 'x' ∧ e ≠ '0' ∧ e ≠ '\r' := by
    refine ⟨?_, ?_, ?_, ?_⟩
    all_goals
      rintro rfl
    · cases he
    · cases he
    · cases he
    · exact hl (by decide)
  simp [scriptItem?, hne, hl, he]

lemma scriptItem?_unit {a b c d : Char} {n : Nat} (hn : hexValue4? a b c d = some n) (s : Text) :
    scriptItem? ('\\' :: 'u' :: a :: b :: c :: d :: s) = some ([n.toUInt16], s) := by
  have ha : a ≠ '\x7b' := by
    rintro rfl
    cases hn
  simp [scriptItem?, hn]

lemma scriptEscape?_of_simpleEscape? {e c : Char} :
    simpleEscape? e = some c → scriptEscape? e = some c ∧ e ∉ lineEnds := by
  fun_cases simpleEscape? e with
  | case9 => exact nofun
  | _ =>
    intro h
    cases h
    decide

lemma scriptItem?_of_jsonItem? (s : Text) (item : Utf16 × Text) (h : jsonItem? s = some item) :
    scriptItem? s = some item := by
  obtain ⟨units, rest⟩ := item
  rcases jsonItem?_cases h with ⟨c, rfl, hq, hb, hc, rfl⟩ | ⟨e, c, rfl, he, rfl⟩ |
    ⟨a, b, c, d, n, rfl, hn, rfl⟩
  · apply scriptItem?_plain
    have hn : c ≠ '\n' ∧ c ≠ '\r' := by
      constructor <;> rintro rfl <;> exact absurd hc (by decide)
    simp [hq, hb, hn]
  · obtain ⟨he, hl⟩ := scriptEscape?_of_simpleEscape? he
    exact scriptItem?_escape he hl rest
  · exact scriptItem?_unit hn rest

theorem content_eq_ok_iff {opened : Nat} {s rest : Text} {units : Utf16} :
    content opened s = .ok (units, rest) ↔ json.Reads s units rest := by
  constructor
  · intro h
    fun_induction content opened s generalizing units with
    | case2 s =>
      obtain ⟨rfl, rfl⟩ := Prod.mk.inj (Except.ok.inj h)
      exact .close s
    | case4 a b c d n next s hn ih =>
      obtain ⟨more, hmore, rfl⟩ := push_eq_ok h
      exact .item (by simp [json, jsonItem?, hn]) (ih hmore)
    | case7 e s _ _ c he ih =>
      obtain ⟨more, hmore, rfl⟩ := push_eq_ok h
      exact .item (jsonItem?_simple he s) (ih hmore)
    | case10 c s hq hlast _ _ hmore hc ih =>
      obtain ⟨more, hr, rfl⟩ := push_eq_ok h
      have hb : c ≠ '\\' := by
        intro hb
        cases s with
        | nil => exact hlast hb rfl
        | cons e s => exact hmore e s hb rfl
      exact .item (jsonItem?_plain hq hb (Nat.le_of_not_lt hc) s) (ih hr)
    | _ => simp at h
  · intro h
    induction h with
    | close rest => rfl
    | item h hm ih =>
      rcases jsonItem?_cases h with ⟨c, rfl, hq, hb, hc, rfl⟩ | ⟨e, c, rfl, he, rfl⟩ |
        ⟨a, b, c, d, n, rfl, hn, rfl⟩
      · rw [content_printable opened _ hq hb hc, ih]
        rfl
      · rw [content_simple opened _ he, ih]
        rfl
      · rw [content_unit opened hn (hm.ne_nil rfl), ih]
        rfl

lemma read?_eq_some_iff {s rest : Text} {units : Utf16} :
    read? s = some (units, rest) ↔ ∃ t, s = '"' :: t ∧ json.Reads t units rest := by
  constructor
  · intro h
    rw [read?.eq_def] at h
    split at h
    · next t =>
      cases hc : content 0 t with
      | error left =>
        rw [hc] at h
        cases h
      | ok item =>
        rw [hc] at h
        obtain rfl := Option.some.inj h
        exact ⟨t, rfl, content_eq_ok_iff.mp hc⟩
    · cases h
  · rintro ⟨t, rfl, h⟩
    rw [read?, content_eq_ok_iff.mpr h]
    rfl

def Dialect.Spells (dialect : Dialect) (s spelt rest : Text) : Prop :=
  ∃ t units, s = '"' :: t ∧ dialect.Reads t units rest ∧ text? units = some spelt

lemma encode_append (units : Utf16) (rest : Text) :
    encode units ++ rest = '"' :: (units.flatMap encodeUnit ++ '"' :: rest) := by
  simp [encode]

lemma Dialect.spells_encode_iff {dialect : Dialect}
    (hunit : ∀ u s, dialect.item? (encodeUnit u ++ s) = some ([u], s)) (s rest : Text)
    {spelt rest' : Text} :
    dialect.Spells (encode (ofText s) ++ rest) spelt rest' ↔ spelt = s ∧ rest' = rest := by
  rw [encode_append]
  constructor
  · rintro ⟨t, units, ht, hr, hu⟩
    obtain rfl := (List.cons.inj ht).2
    obtain ⟨rfl, rfl⟩ := (reads_units_iff hunit _).mp hr
    rw [Utf16.text?_ofText] at hu
    exact ⟨(Option.some.inj hu).symm, rfl⟩
  · rintro ⟨rfl, rfl⟩
    exact ⟨_, _, rfl, (reads_units_iff hunit _).mpr ⟨rfl, rfl⟩, Utf16.text?_ofText _⟩

lemma encode_begins_iff {units more : Utf16} : encode units <+: encode more ↔ units = more := by
  constructor
  · rintro ⟨rest, h⟩
    have hread := read?_encode units rest
    have hmore := read?_encode more []
    rw [h] at hread
    rw [List.append_nil, hread] at hmore
    exact (Prod.mk.inj (Option.some.inj hmore)).1
  · rintro rfl
    exact List.prefix_rfl

/-- A written literal delimits itself: JSON and scripts both read back the text that it was written
for and nothing else, and stop where it ends. It is printable ASCII on one line, and none begins
another. -/
theorem encode_selfDelimiting (s : Text) :
    (∀ rest spelt rest',
      json.Spells (encode (ofText s) ++ rest) spelt rest' ↔ spelt = s ∧ rest' = rest) ∧
    (∀ rest spelt rest',
      script.Spells (encode (ofText s) ++ rest) spelt rest' ↔ spelt = s ∧ rest' = rest) ∧
    (∀ rest, read? (encode (ofText s) ++ rest) = some (ofText s, rest)) ∧
    (∀ c ∈ encode (ofText s), 0x20 ≤ c.toNat ∧ c.toNat ≤ 0x7e) ∧
    (∀ c ∈ lineEnds, c ∉ encode (ofText s)) ∧
    ∀ t, encode (ofText s) <+: encode (ofText t) ↔ s = t := by
  refine ⟨?_, ?_, ?_, fun c hc => printable_of_mem_encode hc, ?_, ?_⟩
  · exact fun rest _ _ => Dialect.spells_encode_iff jsonItem?_encodeUnit s rest
  · have hunit : ∀ u s, script.item? (encodeUnit u ++ s) = some ([u], s) :=
      fun u s => scriptItem?_of_jsonItem? _ _ (jsonItem?_encodeUnit u s)
    exact fun rest _ _ => Dialect.spells_encode_iff hunit s rest
  · intro rest
    exact read?_eq_some_iff.mpr ⟨_, encode_append _ rest,
      (Dialect.reads_units_iff jsonItem?_encodeUnit _).mpr ⟨rfl, rfl⟩⟩
  · intro c hl hc
    have hends : lineEnds.all (fun c => decide (¬ Printable c)) = true := by decide
    exact of_decide_eq_true (List.all_eq_true.mp hends c hl) (printable_of_mem_encode hc)
  · intro t
    rw [encode_begins_iff]
    exact ⟨Utf16.ofText_injective, congrArg ofText⟩

end ComponentCompiler.Text.Literal
