import ComponentCompiler.Proofs.CommandLineExits
import ComponentCompiler.Proofs.JsonLayout
import ComponentCompiler.Proofs.KeyedPairs

/-! Which settings a file gives, and which keys a report names: a key is named just when the last
value given for it is none that a setting of that name takes. -/

namespace ComponentCompiler

namespace Settings

inductive Truth : Json → Bool → Prop
  | bool (b : Bool) : Truth (.bool b) b
  | zero : Truth (.int 0) false
  | one : Truth (.int 1) true
  | realZero {x : Binary64} (h : x.toInt? = some 0) : Truth (.real x) false
  | realOne {x : Binary64} (h : x.toInt? = some 1) : Truth (.real x) true
  | no {s : Text} (h : s.map Char.toLower ∈ falsehoodWords) : Truth (.string (.ofText s)) false
  | yes {s : Text} (h : s.map Char.toLower ∈ truthWords) : Truth (.string (.ofText s)) true

lemma boolOfInt?_eq_some_iff {n : Int} {b : Bool} :
    boolOfInt? n = some b ↔ n = 0 ∧ b = false ∨ n = 1 ∧ b = true := by
  unfold boolOfInt?
  split_ifs with h₀ h₁ <;> cases b <;> simp [*]

lemma boolOfText?_eq_some_iff {s : Text} {b : Bool} :
    boolOfText? s = some b ↔ s.map Char.toLower ∈ falsehoodWords ∧ b = false ∨
      s.map Char.toLower ∈ truthWords ∧ b = true := by
  have hdisjoint : truthWords.all (fun w => w ∉ falsehoodWords) = true := by decide
  have hyes : s.map Char.toLower ∈ truthWords → s.map Char.toLower ∉ falsehoodWords := by
    intro h
    exact of_decide_eq_true (List.all_eq_true.mp hdisjoint _ h)
  unfold boolOfText?
  dsimp only
  split_ifs with h₀ h₁
  · have h₁ : s.map Char.toLower ∉ truthWords := fun h => hyes h h₀
    cases b <;> simp [h₀, h₁]
  · cases b <;> simp [h₀, h₁]
  · simp [h₀, h₁]

lemma boolOf?_eq_some_iff {v : Json} {b : Bool} : boolOf? v = some b ↔ Truth v b := by
  constructor
  · intro h
    cases v with
    | bool b' =>
      cases h
      exact .bool b
    | int n =>
      rcases boolOfInt?_eq_some_iff.mp h with ⟨rfl, rfl⟩ | ⟨rfl, rfl⟩
      · exact .zero
      · exact .one
    | real x =>
      obtain ⟨n, hx, hn⟩ := Option.bind_eq_some_iff.mp h
      rcases boolOfInt?_eq_some_iff.mp hn with ⟨rfl, rfl⟩ | ⟨rfl, rfl⟩
      · exact .realZero hx
      · exact .realOne hx
    | string s =>
      obtain ⟨t, ht, hw⟩ := Option.bind_eq_some_iff.mp h
      obtain rfl := Utf16.text?_eq_some_iff.mp ht
      rcases boolOfText?_eq_some_iff.mp hw with ⟨hno, rfl⟩ | ⟨hyes, rfl⟩
      · exact .no hno
      · exact .yes hyes
    | null => cases h
    | array => cases h
    | object => cases h
  · intro h
    cases h with
    | bool => rfl
    | zero => rfl
    | one => rfl
    | realZero h => simp [boolOf?, h, boolOfInt?]
    | realOne h => simp [boolOf?, h, boolOfInt?]
    | no h => simp [boolOf?, boolOfText?_eq_some_iff, h]
    | yes h => simp [boolOf?, boolOfText?_eq_some_iff, h]

inductive Setting where
  | text (field : Field)
  | verbose
  deriving DecidableEq

namespace Setting

def all : List Setting :=
  Field.all.map text ++ [verbose]

def key : Setting → Text
  | .text field => field.key
  | .verbose => verboseKey

def HasValue (settings : Settings) (v : Json) : Setting → Prop
  | .text field => v = .string (settings.get field)
  | .verbose => Truth v settings.verbose

def Agrees (settings others : Settings) : Setting → Prop
  | .text field => settings.get field = others.get field
  | .verbose => settings.verbose = others.verbose

def Takes (v : Json) : Setting → Prop
  | .text _ => ∃ s, v = .string s
  | .verbose => ∃ b, Truth v b

lemma mem_all (setting : Setting) : setting ∈ all := by
  cases setting with
  | text field => cases field <;> decide
  | verbose => decide

lemma map_key_all : all.map key = keys := by
  rw [all, keys, List.map_append, List.map_map]
  rfl

lemma nodup_keys : keys.Nodup := by
  decide +kernel

lemma key_injective {a b : Setting} (h : a.key = b.key) : a = b :=
  List.inj_on_of_nodup_map (map_key_all ▸ nodup_keys) (mem_all a) (mem_all b) h

lemma key_mem_keys (setting : Setting) : setting.key ∈ keys :=
  map_key_all ▸ List.mem_map_of_mem (mem_all setting)

lemma exists_of_mem_keys {k : Text} (h : k ∈ keys) : ∃ setting : Setting, setting.key = k := by
  rw [← map_key_all] at h
  obtain ⟨setting, -, hk⟩ := List.mem_map.mp h
  exact ⟨setting, hk⟩

def offends (members : Keyed Text Json) : Setting → Bool
  | .text field => Settings.offends members field
  | .verbose => verboseOffends members

lemma offends_iff {members : Keyed Text Json} {setting : Setting} :
    setting.offends members = true ↔
      ∃ v, members.find? setting.key = some v ∧ ¬ setting.Takes v := by
  have htext : ∀ v, (textOf? v).isNone = true ↔ ¬ ∃ s, v = .string s := by
    intro v
    cases v <;> simp [textOf?]
  have hbool : ∀ v, (boolOf? v).isNone = true ↔ ¬ ∃ b, Truth v b := by
    intro v
    simp only [Option.isNone_iff_eq_none, Option.eq_none_iff_forall_ne_some, ne_eq,
      boolOf?_eq_some_iff, not_exists]
  cases setting with
  | text field =>
    rw [offends, Settings.offends, key]
    cases hf : members.find? field.key with
    | none => simp
    | some v => simpa [Takes] using htext v
  | verbose =>
    rw [offends, verboseOffends, key]
    cases hf : members.find? verboseKey with
    | none => simp
    | some v => simpa [Takes] using hbool v

end Setting

variable {members : Keyed Text Json}

lemma offenders_eq (members : Keyed Text Json) :
    offenders members = (Setting.all.filter (Setting.offends members)).map Setting.key ++
      members.keys.filter (· ∉ keys) := by
  have hverbose : [Setting.verbose].filter (Setting.offends members) =
      if verboseOffends members then [.verbose] else [] := by
    cases h : verboseOffends members <;> simp [Setting.offends, h]
  rw [offenders, Setting.all, List.filter_append, List.filter_map, hverbose, List.map_append,
    List.map_map]
  congr 2
  split <;> rfl

lemma mem_offenders_iff {k : Text} :
    k ∈ offenders members ↔ ∃ v, members.find? k = some v ∧
      ∀ setting : Setting, setting.key = k → ¬ setting.Takes v := by
  rw [offenders_eq, List.mem_append, List.mem_map, List.mem_filter]
  constructor
  · rintro (⟨setting, hs, rfl⟩ | ⟨hk, hunknown⟩)
    · obtain ⟨v, hv, ht⟩ := Setting.offends_iff.mp (List.mem_filter.mp hs).2
      refine ⟨v, hv, fun other ho => ?_⟩
      rwa [Setting.key_injective ho]
    · obtain ⟨v, hv⟩ := Keyed.mem_keys_iff.mp hk
      refine ⟨v, hv, ?_⟩
      rintro setting rfl
      exact absurd setting.key_mem_keys (of_decide_eq_true hunknown)
  · rintro ⟨v, hv, hbad⟩
    by_cases hk : k ∈ keys
    · obtain ⟨setting, rfl⟩ := Setting.exists_of_mem_keys hk
      refine Or.inl ⟨setting, List.mem_filter.mpr ⟨setting.mem_all, ?_⟩, rfl⟩
      exact Setting.offends_iff.mpr ⟨v, hv, hbad setting rfl⟩
    · exact Or.inr ⟨Keyed.mem_keys_iff.mpr ⟨v, hv⟩, by simpa using hk⟩

lemma sublist_keys (members : Keyed Text Json) :
    ((Setting.all.filter (Setting.offends members)).map Setting.key).Sublist keys := by
  rw [← Setting.map_key_all]
  exact List.filter_sublist.map _

lemma nodup_offenders (h : members.keys.Nodup) : (offenders members).Nodup := by
  rw [offenders_eq]
  refine List.nodup_append.mpr ⟨Setting.nodup_keys.sublist (sublist_keys members), h.filter _, ?_⟩
  rintro k hk _ hu rfl
  exact of_decide_eq_true (List.mem_filter.mp hu).2 ((sublist_keys members).subset hk)

variable {pairs : List (Text × Json)} {settings others : Settings}

def Offends (pairs : List (Text × Json)) (k : Text) : Prop :=
  ∃ v, Keyed.Gives pairs k v ∧ ∀ setting : Setting, setting.key = k → ¬ setting.Takes v

structure Settles (pairs : List (Text × Json)) (settings : Settings) : Prop where
  given : ∀ (setting : Setting) (v : Json), Keyed.Gives pairs setting.key v →
    setting.HasValue settings v
  other : ∀ setting : Setting, setting.key ∉ pairs.map Prod.fst → setting.Agrees settings default

/-- The keys that a report names: settings in order of declaration, then other keys in order of
their first occurrence, each once and only those that offend. -/
structure Reports (pairs : List (Text × Json)) (known unknown : List Text) : Prop where
  mem : ∀ k, k ∈ known ++ unknown ↔ Offends pairs k
  nodup : (known ++ unknown).Nodup
  declared : known.Sublist keys
  occurring : unknown.Pairwise fun a b =>
    (pairs.map Prod.fst).idxOf a < (pairs.map Prod.fst).idxOf b
  foreign : ∀ k ∈ unknown, k ∉ keys

lemma eq_of_agrees (h : ∀ setting : Setting, setting.Agrees settings others) :
    settings = others := by
  cases settings
  cases others
  simp only [mk.injEq]
  exact ⟨h (.text .sourceDir), h (.text .outputDir), h (.text .sourceSuffix),
    h (.text .entryName), h (.text .moduleFilename), h (.text .htmlFilename), h (.text .rootId),
    h (.text .componentAttribute), h (.text .title), h .verbose⟩

lemma Setting.HasValue.agrees {setting : Setting} {v : Json} (h : setting.HasValue settings v)
    (h' : setting.HasValue others v) : setting.Agrees settings others := by
  cases setting with
  | text field => exact Json.string.inj (h.symm.trans h')
  | verbose =>
    exact Option.some.inj ((boolOf?_eq_some_iff.mpr h).symm.trans (boolOf?_eq_some_iff.mpr h'))

lemma Settles.unique (h : Settles pairs settings) (h' : Settles pairs others) :
    settings = others := by
  apply eq_of_agrees
  intro setting
  by_cases hk : setting.key ∈ pairs.map Prod.fst
  · obtain ⟨v, hv⟩ := Keyed.mem_map_fst_iff.mp hk
    exact (h.given setting v hv).agrees (h'.given setting v hv)
  · have hs := h.other setting hk
    have ho := h'.other setting hk
    cases setting with
    | text field => exact hs.trans ho.symm
    | verbose => exact hs.trans ho.symm

lemma mem_offenders_ofPairs_iff {k : Text} :
    k ∈ offenders (.ofPairs pairs) ↔ Offends pairs k := by
  simp only [mem_offenders_iff, Keyed.find?_ofPairs_eq_some_iff, Offends]

lemma reports_offenders (pairs : List (Text × Json)) :
    ∃ known unknown, offenders (.ofPairs pairs) = known ++ unknown ∧
      Reports pairs known unknown := by
  refine ⟨_, _, offenders_eq _, ?_⟩
  have hnodup := nodup_offenders (Keyed.nodup_keys_ofPairs pairs)
  refine ⟨fun k => ?_, offenders_eq (.ofPairs pairs) ▸ hnodup, sublist_keys _, ?_, ?_⟩
  · rw [← offenders_eq, mem_offenders_ofPairs_iff]
  · exact (Keyed.pairwise_keys_ofPairs pairs).filter _
  · exact fun k hk => of_decide_eq_true (List.mem_filter.mp hk).2

lemma get_ofFields (text : Field → Utf16) (verbose : Bool) (field : Field) :
    (ofFields text verbose).get field = text field := by
  cases field <;> rfl

lemma settles_overriding (h : ∀ k, ¬ Offends pairs k) :
    Settles pairs (overriding (.ofPairs pairs)) where
  given setting v hv := by
    have htakes : setting.Takes v := by
      by_contra hbad
      refine h setting.key ⟨v, hv, fun other ho => ?_⟩
      rwa [Setting.key_injective ho]
    have hfind := Keyed.find?_ofPairs_eq_some_iff.mpr hv
    cases setting with
    | text field =>
      obtain ⟨s, rfl⟩ := htakes
      rw [Setting.key] at hfind
      simp [Setting.HasValue, overriding, get_ofFields, hfind, textOf?]
    | verbose =>
      obtain ⟨b, hb⟩ := htakes
      rw [Setting.key] at hfind
      have hverbose : (overriding (.ofPairs pairs)).verbose = b := by
        simp [overriding, ofFields, hfind, boolOf?_eq_some_iff.mpr hb]
      rwa [Setting.HasValue, hverbose]
  other setting hnone := by
    have hfind := Keyed.find?_eq_none_iff.mpr (mt Keyed.mem_keys_ofPairs.mp hnone)
    cases setting with
    | text field =>
      rw [Setting.key] at hfind
      simp [Setting.Agrees, overriding, get_ofFields, hfind]
    | verbose =>
      rw [Setting.key] at hfind
      simp [Setting.Agrees, overriding, ofFields, hfind]

def spelt (pairs : List (Text × Json)) : List (Utf16 × Json) :=
  pairs.map fun p => (.ofText p.1, p.2)

lemma named?_spelt (members : Keyed Text Json) : named? (spelt members) = some members := by
  induction members with
  | nil => rfl
  | cons p members ih =>
    rw [named?, spelt] at ih
    rw [named?, spelt, List.map_cons, List.mapM_cons, ih]
    simp

lemma named?_eq_none {members : Keyed Utf16 Json} {p : Utf16 × Json} (hm : p ∈ members)
    (hp : p.1.text? = none) : named? members = none := by
  induction members with
  | nil => cases hm
  | cons q members ih =>
    rw [named?, List.mapM_cons]
    rcases List.mem_cons.mp hm with rfl | hm
    · simp [hp]
    · have hrest := ih hm
      rw [named?] at hrest
      simp [hrest]

lemma ofMembers_spelt (pairs : List (Text × Json)) :
    ofMembers (.ofPairs (spelt pairs)) =
      if offenders (.ofPairs pairs) = [] then .ok (overriding (.ofPairs pairs))
      else .error (offenders (.ofPairs pairs)) := by
  have hspelt : Keyed.ofPairs (spelt pairs) = spelt (Keyed.ofPairs pairs) :=
    Keyed.ofPairs_map_keys (fun _ _ => Utf16.ofText_injective) pairs
  rw [ofMembers, hspelt, named?_spelt]
  dsimp only
  split
  · next h => rw [if_pos h]
  · next h => rw [if_neg h]

lemma ofMembers_of_accepted (h : ∀ k, ¬ Offends pairs k) :
    ofMembers (.ofPairs (spelt pairs)) = .ok (overriding (.ofPairs pairs)) := by
  rw [ofMembers_spelt, if_pos]
  rw [List.eq_nil_iff_forall_not_mem]
  exact fun k hk => h k (mem_offenders_ofPairs_iff.mp hk)

lemma ofMembers_of_offends {k : Text} (h : Offends pairs k) :
    ofMembers (.ofPairs (spelt pairs)) = .error (offenders (.ofPairs pairs)) := by
  rw [ofMembers_spelt, if_neg]
  exact List.ne_nil_of_mem (mem_offenders_ofPairs_iff.mpr h)

variable {disk : Disk} {path : Utf16} {text : Text}

lemma load_of_text (h : disk.readText path = .ok (.ok text)) :
    load disk path = ofText path text := by
  cases hr : disk.read path with
  | error e => simp [Disk.readText, hr, Except.map] at h
  | ok bytes => rw [load, if_pos (Disk.has_of_read hr), h]

lemma load_of_holds {raw : List (Utf16 × Json)} (h : disk.readText path = .ok (.ok text))
    (ht : Json.Holds text raw) :
    load disk path = (ofMembers (.ofPairs raw)).mapError (invalidValues path) := by
  rw [load_of_text h, ofText, Json.read_object_iff.mpr ⟨raw, ht, rfl⟩]

lemma load_eq_ok_iff (h : disk.readText path = .ok (.ok text))
    (ht : Json.Holds text (spelt pairs)) :
    load disk path = .ok settings ↔ (∀ k, ¬ Offends pairs k) ∧ Settles pairs settings := by
  rw [load_of_holds h ht]
  constructor
  · intro hs
    have hnone : ∀ k, ¬ Offends pairs k := by
      intro k hk
      rw [ofMembers_of_offends hk] at hs
      cases hs
    rw [ofMembers_of_accepted hnone] at hs
    cases hs
    exact ⟨hnone, settles_overriding hnone⟩
  · rintro ⟨hnone, hs⟩
    rw [ofMembers_of_accepted hnone, hs.unique (settles_overriding hnone)]
    rfl

lemma ofMembers_of_unnamed {raw : List (Utf16 × Json)} {key : Utf16}
    (hm : key ∈ raw.map Prod.fst) (hk : key.text? = none) :
    ofMembers (.ofPairs raw) = .error [[]] := by
  obtain ⟨p, hp, rfl⟩ := List.mem_map.mp (Keyed.mem_keys_ofPairs.mpr hm)
  rw [ofMembers, named?_eq_none hp hk]

def listing (ks : List Text) : Text :=
  "Invalid config value(s): ".toList ++ Text.join ", ".toList ks

def Refuses (path : Utf16) (detail : Text) (result : Except Failure Settings) : Prop :=
  ∃ hint?, result = .error (.diagnosed ⟨.settings, detail, some path, hint?⟩)

structure Checks (path : Utf16) (text : Text) (result : Except Failure Settings) : Prop where
  accepted : ∀ pairs, Json.Holds text (spelt pairs) →
    ((∃ settings, result = .ok settings) ↔ ∀ k, ¬ Offends pairs k)
  settled : ∀ pairs settings, Json.Holds text (spelt pairs) → result = .ok settings →
    Settles pairs settings
  reported : ∀ pairs, Json.Holds text (spelt pairs) → (∃ k, Offends pairs k) →
    ∃ known unknown, Reports pairs known unknown ∧ Refuses path (listing (known ++ unknown)) result
  unnamed : ∀ raw, Json.Holds text raw → (∃ key ∈ raw.map Prod.fst, key.text? = none) →
    Refuses path (listing []) result
  noObject : ∀ v, Json.read text = .ok v → (∀ members, v ≠ .object members) →
    Refuses path "Config must be a JSON object".toList result

theorem load_checks (h : disk.readText path = .ok (.ok text)) :
    Checks path text (load disk path) where
  accepted pairs ht := by
    constructor
    · rintro ⟨settings, hs⟩
      exact ((load_eq_ok_iff h ht).mp hs).1
    · intro hnone
      exact ⟨_, (load_eq_ok_iff h ht).mpr ⟨hnone, settles_overriding hnone⟩⟩
  settled pairs settings ht hs := ((load_eq_ok_iff h ht).mp hs).2
  reported pairs ht := by
    rintro ⟨k, hk⟩
    obtain ⟨known, unknown, hlist, hreports⟩ := reports_offenders pairs
    refine ⟨known, unknown, hreports, ?_⟩
    rw [load_of_holds h ht, ofMembers_of_offends hk, hlist]
    exact ⟨_, rfl⟩
  unnamed raw ht := by
    rintro ⟨key, hm, hk⟩
    rw [load_of_holds h ht, ofMembers_of_unnamed hm hk]
    exact ⟨_, rfl⟩
  noObject v hv hne := by
    rw [load_of_text h, ofText, hv]
    cases v with
    | object members => exact absurd rfl (hne members)
    | _ => exact ⟨_, rfl⟩

def fileDisk (text : Text) : Disk where
  entries := [([⟨[0x7a, 0x6d, 0x78, 0x2e, 0x6a, 0x73, 0x6f, 0x6e], rfl⟩],
    .file (Text.Utf8.encode text))]
  home := ⟨[], 0⟩
  nodup := List.nodup_singleton _

def repeatedText : Text :=
  "\x7b\"size\":true,\"title\":\"x\",\"size\":false,\"title\":true\x7d".toList

def repeatedPairs : List (Text × Json) :=
  [("size".toList, .bool true), ("title".toList, .string (.ofString "x")),
    ("size".toList, .bool false), ("title".toList, .bool true)]

theorem load_repeatedText :
    Json.Holds repeatedText (spelt repeatedPairs) ∧ Offends repeatedPairs "title".toList ∧
      (fileDisk repeatedText).readText filename = .ok (.ok repeatedText) ∧
      Checks filename repeatedText (load (fileDisk repeatedText) filename) := by
  have hlaid : Json.Laid (Json.Plain.object
      [(.ofString "size", .truth true), (.ofString "title", .text (.ofString "x")),
        (.ofString "size", .truth false), (.ofString "title", .truth true)]) repeatedText :=
    Json.Laid.of_texts rfl (by decide +kernel)
  have htitle : "title".toList ∈ offenders (.ofPairs repeatedPairs) := by decide +kernel
  have hread : (fileDisk repeatedText).readText filename = .ok (.ok repeatedText) := by
    decide +kernel
  exact ⟨Json.Plain.holds_of_laid hlaid, mem_offenders_ofPairs_iff.mp htitle, hread,
    load_checks hread⟩

def unpairedText : Text :=
  "\x7b\"title\":true,\"\\ud800\":true\x7d".toList

theorem load_unpairedText :
    Json.Holds unpairedText [(.ofString "title", .bool true), ([0xd800], .bool true)] ∧
      Refuses filename (listing []) (load (fileDisk unpairedText) filename) ∧
      ¬ "title".toList <:+: listing [] := by
  have hlaid : Json.Laid
      (Json.Plain.object [(.ofString "title", .truth true), ([0xd800], .truth true)])
      unpairedText := Json.Laid.of_texts rfl (by decide +kernel)
  have hload : load (fileDisk unpairedText) filename = .error (invalidValues filename []) := by
    decide +kernel
  exact ⟨Json.Plain.holds_of_laid hlaid, ⟨_, hload⟩, by decide +kernel⟩

end Settings

end ComponentCompiler
