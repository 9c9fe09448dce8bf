import ComponentCompiler.Json.Reader
import ComponentCompiler.Proofs.Searching

/-! The grammar of JSON over lexemes. Reading one token at a time, with a stack of what is open,
accepts just the lexemes of a value, and gives that value. -/

namespace ComponentCompiler.Json

structure Member where
  key : Utf16
  lexemes : List Lexeme
  value : Json

namespace Member

def written (m : Member) : List Lexeme :=
  .string m.key :: .colon :: m.lexemes

def pair (m : Member) : Utf16 × Json :=
  (m.key, m.value)

end Member

inductive Spells : List Lexeme → Json → Prop
  | string (s : Utf16) : Spells [.string s] (.string s)
  | atom (value : Json) : Spells [.atom value] value
  | array (items : List (List Lexeme × Json)) (h : ∀ item ∈ items, Spells item.1 item.2) :
      Spells (.openArray :: [.comma].intercalate (items.map Prod.fst) ++ [.closeArray])
        (.array (items.map Prod.snd))
  | object (members : List Member) (h : ∀ m ∈ members, Spells m.lexemes m.value) :
      Spells (.openObject :: [.comma].intercalate (members.map Member.written) ++ [.closeObject])
        (.object (Keyed.ofPairs (members.map Member.pair)))

namespace Progress

inductive Moves : Progress → Lexeme → Progress → Prop
  | openObject (frames : List Frame) : Moves (.value frames) .openObject (.firstKey frames)
  | openArray (frames : List Frame) : Moves (.value frames) .openArray (.firstItem frames)
  | string (frames : List Frame) (s : Utf16) :
      Moves (.value frames) (.string s) (.complete frames (.string s))
  | atom (frames : List Frame) (v : Json) : Moves (.value frames) (.atom v) (.complete frames v)
  | noItem (frames : List Frame) :
      Moves (.firstItem frames) .closeArray (.complete frames (.array []))
  | firstItem {frames : List Frame} {l : Lexeme} {q : Progress}
      (h : Moves (.value (.array [] :: frames)) l q) : Moves (.firstItem frames) l q
  | noKey (frames : List Frame) :
      Moves (.firstKey frames) .closeObject (.complete frames (.object []))
  | firstKey {frames : List Frame} {l : Lexeme} {q : Progress} (h : Moves (.key frames []) l q) :
      Moves (.firstKey frames) l q
  | key (frames : List Frame) (members : Keyed Utf16 Json) (s : Utf16) :
      Moves (.key frames members) (.string s) (.colon frames members s)
  | colon (frames : List Frame) (members : Keyed Utf16 Json) (k : Utf16) :
      Moves (.colon frames members k) .colon (.value (.object members k :: frames))
  | nextItem (frames : List Frame) (items : List Json) (v : Json) :
      Moves (.complete (.array items :: frames) v) .comma (.value (.array (v :: items) :: frames))
  | closeArray (frames : List Frame) (items : List Json) (v : Json) :
      Moves (.complete (.array items :: frames) v) .closeArray
        (.complete frames (.array (v :: items).reverse))
  | nextKey (frames : List Frame) (members : Keyed Utf16 Json) (k : Utf16) (v : Json) :
      Moves (.complete (.object members k :: frames) v) .comma (.key frames (members.put k v))
  | closeObject (frames : List Frame) (members : Keyed Utf16 Json) (k : Utf16) (v : Json) :
      Moves (.complete (.object members k :: frames) v) .closeObject
        (.complete frames (.object (members.put k v)))

lemma moves_of_beginValue {frames : List Frame} {t : Token} {q : Progress}
    (h : beginValue frames t = .ok q) : Moves (.value frames) t.lexeme q := by
  obtain ⟨left, l⟩ := t
  cases l <;> cases h
  all_goals constructor

lemma moves_of_beginMember {frames : List Frame} {members : Keyed Utf16 Json} {t : Token}
    {q : Progress} (h : beginMember frames members t = .ok q) :
    Moves (.key frames members) t.lexeme q := by
  obtain ⟨left, l⟩ := t
  cases l <;> cases h
  constructor

lemma moves_of_step {p q : Progress} {t : Token} (h : p.step t = .ok q) :
    Moves p t.lexeme q := by
  cases p with
  | value frames => exact moves_of_beginValue h
  | firstItem frames =>
    rw [step] at h
    split at h
    · next hl =>
      cases h
      rw [hl]
      exact .noItem frames
    · exact .firstItem (moves_of_beginValue h)
  | firstKey frames =>
    rw [step] at h
    split at h
    · next hl =>
      cases h
      rw [hl]
      exact .noKey frames
    · exact .firstKey (moves_of_beginMember h)
  | key frames members => exact moves_of_beginMember h
  | colon frames members k =>
    rw [step] at h
    split at h
    · next hl =>
      cases h
      rw [hl]
      exact .colon frames members k
    · cases h
  | complete frames v =>
    obtain ⟨left, l⟩ := t
    rw [step, afterValue.eq_def] at h
    split at h
    · next hl =>
      cases h
      rw [hl]
      exact .nextItem _ _ _
    · next hl =>
      cases h
      rw [hl]
      exact .closeArray _ _ _
    · next hl =>
      cases h
      rw [hl]
      exact .nextKey _ _ _ _
    · next hl =>
      cases h
      rw [hl]
      exact .closeObject _ _ _ _
    · cases h

lemma Moves.step {p q : Progress} {l : Lexeme} (h : Moves p l q) (left : Nat) :
    p.step ⟨left, l⟩ = .ok q := by
  cases h with
  | firstItem h => cases h <;> rfl
  | firstKey h =>
    cases h
    rfl
  | _ => rfl

/-- What the open arrays and objects still demand after a value, for the whole to be `whole`. -/
def Closes : List Frame → Json → List Lexeme → Json → Prop
  | [], v, ls, whole => ls = [] ∧ v = whole
  | .array before :: frames, v, ls, whole =>
    ∃ (items : List (List Lexeme × Json)) (rest : List Lexeme),
      (∀ item ∈ items, Spells item.1 item.2) ∧
      ls = items.flatMap (fun item => .comma :: item.1) ++ .closeArray :: rest ∧
      Closes frames (.array ((v :: before).reverse ++ items.map Prod.snd)) rest whole
  | .object before k :: frames, v, ls, whole =>
    ∃ (members : List Member) (rest : List Lexeme),
      (∀ m ∈ members, Spells m.lexemes m.value) ∧
      ls = members.flatMap (fun m => .comma :: m.written) ++ .closeObject :: rest ∧
      Closes frames (.object ((members.map Member.pair).foldl (fun ms p => Keyed.put p.1 p.2 ms)
        (Keyed.put k v before))) rest whole

def Demands : Progress → List Lexeme → Json → Prop
  | .value frames, ls, whole =>
    ∃ front rest v, ls = front ++ rest ∧ Spells front v ∧ Closes frames v rest whole
  | .firstItem frames, ls, whole =>
    ∃ (items : List (List Lexeme × Json)) (rest : List Lexeme),
      (∀ item ∈ items, Spells item.1 item.2) ∧
      ls = [.comma].intercalate (items.map Prod.fst) ++ .closeArray :: rest ∧
      Closes frames (.array (items.map Prod.snd)) rest whole
  | .firstKey frames, ls, whole =>
    ∃ (members : List Member) (rest : List Lexeme), (∀ m ∈ members, Spells m.lexemes m.value) ∧
      ls = [.comma].intercalate (members.map Member.written) ++ .closeObject :: rest ∧
      Closes frames (.object (Keyed.ofPairs (members.map Member.pair))) rest whole
  | .key frames before, ls, whole =>
    ∃ (m : Member) (rest : List Lexeme), Spells m.lexemes m.value ∧ ls = m.written ++ rest ∧
      Closes (.object before m.key :: frames) m.value rest whole
  | .colon frames before k, ls, whole =>
    ∃ front rest v, ls = .colon :: front ++ rest ∧ Spells front v ∧
      Closes (.object before k :: frames) v rest whole
  | .complete frames v, ls, whole => Closes frames v ls whole

lemma Moves.demands {p q : Progress} {l : Lexeme} {ls : List Lexeme} {whole : Json}
    (h : Moves p l q) (hq : q.Demands ls whole) : p.Demands (l :: ls) whole := by
  induction h with
  | openObject frames =>
    obtain ⟨members, rest, hm, rfl, hc⟩ := hq
    exact ⟨_, rest, _, by simp, .object members hm, hc⟩
  | openArray frames =>
    obtain ⟨items, rest, hi, rfl, hc⟩ := hq
    exact ⟨_, rest, _, by simp, .array items hi, hc⟩
  | string frames s => exact ⟨[.string s], ls, _, rfl, .string s, hq⟩
  | atom frames v => exact ⟨[.atom v], ls, _, rfl, .atom v, hq⟩
  | noItem frames => exact ⟨[], ls, by simp, rfl, hq⟩
  | firstItem h ih =>
    obtain ⟨front, rest, v, hl, hs, items, rest', hi, rfl, hc⟩ := ih hq
    refine ⟨(front, v) :: items, rest', ?_, ?_, hc⟩
    · exact List.forall_mem_cons.mpr ⟨hs, hi⟩
    · rw [hl, List.map_cons, Text.intercalate_cons, List.flatMap_map]
      simp
  | noKey frames => exact ⟨[], ls, by simp, rfl, hq⟩
  | firstKey h ih =>
    obtain ⟨m, rest, hs, hl, members, rest', hm, rfl, hc⟩ := ih hq
    refine ⟨m :: members, rest', ?_, ?_, hc⟩
    · exact List.forall_mem_cons.mpr ⟨hs, hm⟩
    · rw [hl, List.map_cons, Text.intercalate_cons, List.flatMap_map]
      simp
  | key frames members k =>
    obtain ⟨front, rest, v, rfl, hs, hc⟩ := hq
    exact ⟨⟨k, front, v⟩, rest, hs, rfl, hc⟩
  | colon frames members k =>
    obtain ⟨front, rest, v, rfl, hs, hc⟩ := hq
    exact ⟨front, rest, v, rfl, hs, hc⟩
  | nextItem frames before v =>
    obtain ⟨front, rest, w, rfl, hs, items, rest', hi, rfl, hc⟩ := hq
    refine ⟨(front, w) :: items, rest', List.forall_mem_cons.mpr ⟨hs, hi⟩, by simp, ?_⟩
    simpa using hc
  | closeArray frames before v =>
    refine ⟨[], ls, by simp, rfl, ?_⟩
    rwa [List.map_nil, List.append_nil]
  | nextKey frames before k v =>
    obtain ⟨m, rest, hs, rfl, members, rest', hm, rfl, hc⟩ := hq
    exact ⟨m :: members, rest', List.forall_mem_cons.mpr ⟨hs, hm⟩, by simp, hc⟩
  | closeObject frames before k v => exact ⟨[], ls, by simp, rfl, hq⟩

lemma run_cons (p : Progress) (t : Token) (ts : List Token) :
    p.run (t :: ts) =
      match p.step t with
      | .ok q => q.run ts
      | .error fault => .error fault := by
  cases p with
  | complete frames v => cases frames <;> rfl
  | _ => rfl

lemma demands_of_run {p : Progress} {ts : List Token} {whole : Json} (h : p.run ts = .ok whole) :
    p.Demands (ts.map Token.lexeme) whole := by
  induction ts generalizing p with
  | nil =>
    rw [run.eq_def] at h
    split at h
    · cases h
      exact ⟨rfl, rfl⟩
    · cases h
    · next he => cases he
  | cons t ts ih =>
    rw [run_cons] at h
    split at h
    · next q hq => exact (moves_of_step hq).demands (ih h)
    · cases h

def Leads (p : Progress) (ls : List Lexeme) (q : Progress) : Prop :=
  ∀ (ts rest : List Token), ts.map Token.lexeme = ls → p.run (ts ++ rest) = q.run rest

lemma Leads.trans {p q r : Progress} {ls ls' : List Lexeme} (h : p.Leads ls q)
    (h' : q.Leads ls' r) : p.Leads (ls ++ ls') r := by
  intro ts rest ht
  obtain ⟨front, back, rfl, hf, hb⟩ := List.map_eq_append_iff.mp ht
  rw [List.append_assoc, h front _ hf, h' back rest hb]

lemma Moves.leads {p q : Progress} {l : Lexeme} (h : Moves p l q) : p.Leads [l] q := by
  intro ts rest ht
  obtain ⟨t, rfl, rfl⟩ := List.map_eq_singleton_iff.mp ht
  rw [List.singleton_append, run_cons, h.step t.left]

lemma Moves.leads_cons {p q r : Progress} {l : Lexeme} {ls : List Lexeme} (h : Moves p l q)
    (h' : q.Leads ls r) : p.Leads (l :: ls) r :=
  h.leads.trans h'

lemma leads_nil (p : Progress) : p.Leads [] p := by
  intro ts rest ht
  rw [List.map_eq_nil_iff.mp ht, List.nil_append]

def Completes (ls : List Lexeme) (v : Json) : Prop :=
  ∀ frames, ∃ l rest q, ls = l :: rest ∧ Moves (.value frames) l q ∧
    Leads q rest (.complete frames v)

lemma Completes.leads {ls : List Lexeme} {v : Json} (h : Completes ls v) (frames : List Frame) :
    Leads (.value frames) ls (.complete frames v) := by
  obtain ⟨l, rest, q, rfl, hm, hl⟩ := h frames
  exact hm.leads_cons hl

lemma Completes.leads_firstItem {ls : List Lexeme} {v : Json} (h : Completes ls v)
    (frames : List Frame) : Leads (.firstItem frames) ls (.complete (.array [] :: frames) v) := by
  obtain ⟨l, rest, q, rfl, hm, hl⟩ := h (.array [] :: frames)
  exact (Moves.firstItem hm).leads_cons hl

lemma leads_items {items : List (List Lexeme × Json)}
    (h : ∀ item ∈ items, Completes item.1 item.2) (frames : List Frame) (before : List Json)
    (v : Json) :
    Leads (.complete (.array before :: frames) v)
      (items.flatMap (fun item => .comma :: item.1) ++ [.closeArray])
      (.complete frames (.array ((v :: before).reverse ++ items.map Prod.snd))) := by
  induction items generalizing before v with
  | nil =>
    rw [List.map_nil, List.append_nil]
    exact (Moves.closeArray frames before v).leads
  | cons item items ih =>
    obtain ⟨hi, hitems⟩ := List.forall_mem_cons.mp h
    have hrest := ih hitems (v :: before) item.2
    have hfront := (Moves.nextItem frames before v).leads_cons (hi.leads _)
    have hwhole : (item.2 :: v :: before).reverse ++ items.map Prod.snd =
        (v :: before).reverse ++ (item :: items).map Prod.snd := by simp
    rw [List.flatMap_cons, List.append_assoc, ← hwhole]
    exact hfront.trans hrest

lemma leads_member {m : Member} (h : Completes m.lexemes m.value) (frames : List Frame)
    (before : Keyed Utf16 Json) :
    Leads (.key frames before) m.written (.complete (.object before m.key :: frames) m.value) :=
  (Moves.key frames before m.key).leads_cons
    ((Moves.colon frames before m.key).leads_cons (h.leads _))

lemma leads_members {members : List Member} (h : ∀ m ∈ members, Completes m.lexemes m.value)
    (frames : List Frame) (before : Keyed Utf16 Json) (k : Utf16) (v : Json) :
    Leads (.complete (.object before k :: frames) v)
      (members.flatMap (fun m => .comma :: m.written) ++ [.closeObject])
      (.complete frames (.object ((members.map Member.pair).foldl
        (fun ms p => Keyed.put p.1 p.2 ms) (Keyed.put k v before)))) := by
  induction members generalizing before k v with
  | nil => exact (Moves.closeObject frames before k v).leads
  | cons m members ih =>
    obtain ⟨hm, hmembers⟩ := List.forall_mem_cons.mp h
    have hrest := ih hmembers (before.put k v) m.key m.value
    have hfront := (Moves.nextKey frames before k v).leads_cons (leads_member hm _ _)
    rw [List.flatMap_cons, List.append_assoc]
    exact hfront.trans hrest

lemma completes_of_spells {ls : List Lexeme} {v : Json} (h : Spells ls v) : Completes ls v := by
  induction h with
  | string s => exact fun frames => ⟨_, [], _, rfl, .string frames s, leads_nil _⟩
  | atom v => exact fun frames => ⟨_, [], _, rfl, .atom frames v, leads_nil _⟩
  | array items _ ih =>
    refine fun frames => ⟨_, _ ++ [_], _, rfl, .openArray frames, ?_⟩
    cases items with
    | nil => exact (Moves.noItem frames).leads
    | cons item items =>
      obtain ⟨hi, hitems⟩ := List.forall_mem_cons.mp ih
      rw [List.map_cons, Text.intercalate_cons, List.flatMap_map, List.append_assoc]
      exact (hi.leads_firstItem frames).trans (leads_items hitems frames [] item.2)
  | object members _ ih =>
    refine fun frames => ⟨_, _ ++ [_], _, rfl, .openObject frames, ?_⟩
    cases members with
    | nil => exact (Moves.noKey frames).leads
    | cons m members =>
      obtain ⟨hm, hmembers⟩ := List.forall_mem_cons.mp ih
      rw [List.map_cons, Text.intercalate_cons, List.flatMap_map, List.append_assoc]
      have hfirst : Leads (.firstKey frames) m.written
          (.complete (.object [] m.key :: frames) m.value) :=
        (Moves.firstKey (.key frames [] m.key)).leads_cons
          ((Moves.colon frames [] m.key).leads_cons (hm.leads _))
      exact hfirst.trans (leads_members hmembers frames [] m.key m.value)

end Progress

def lexemes (s : Text) : List Lexeme :=
  (tokens s).map Token.lexeme

theorem read_eq_ok_iff {s : Text} {v : Json} : read s = .ok v ↔ Spells (lexemes s) v := by
  constructor
  · intro h
    obtain ⟨front, rest, w, hl, hs, rfl, rfl⟩ := Progress.demands_of_run h
    rwa [lexemes, hl, List.append_nil]
  · intro h
    have hlead := (Progress.completes_of_spells h).leads [] (tokens s) [] rfl
    rwa [List.append_nil] at hlead

lemma atom_ne_object (s : Text) (members : List (Utf16 × Json)) :
    (atom s).1 ≠ .atom (.object members) := by
  have hwords : ∀ p ∈ words, p.2 ≠ .object members := by simp [words]
  unfold atom
  split
  · next v rest hw =>
    obtain ⟨p, hp, he⟩ := List.exists_of_findSome?_eq_some hw
    obtain ⟨_, _, hv⟩ := Option.map_eq_some_iff.mp he
    intro h
    cases h
    exact hwords p hp (Prod.mk.inj hv).1
  · split
    · unfold number
      split
      · split <;> simp
      · simp
    · simp

lemma next_ne_object (c : Char) (s : Text) (members : List (Utf16 × Json)) :
    (next c s).1 ≠ .atom (.object members) := by
  unfold next
  split
  case h_7 => split <;> simp
  case h_8 => exact atom_ne_object _ members
  all_goals simp

lemma object_notMem_lexemes (s : Text) (members : List (Utf16 × Json)) :
    .atom (.object members) ∉ lexemes s := by
  rw [lexemes]
  fun_induction tokens s with
  | case1 => exact List.not_mem_nil
  | case2 c s _ ih => exact ih
  | case3 c s _ _ ih =>
    rw [List.map_cons, List.mem_cons, not_or]
    exact ⟨(next_ne_object c s members).symm, ih⟩

def Holds (s : Text) (pairs : List (Utf16 × Json)) : Prop :=
  ∃ members : List Member, (∀ m ∈ members, Spells m.lexemes m.value) ∧
    lexemes s =
      .openObject :: [.comma].intercalate (members.map Member.written) ++ [.closeObject] ∧
    pairs = members.map Member.pair

theorem read_object_iff {s : Text} {members : Keyed Utf16 Json} :
    read s = .ok (.object members) ↔ ∃ pairs, Holds s pairs ∧ members = .ofPairs pairs := by
  rw [read_eq_ok_iff]
  constructor
  · intro h
    generalize hl : lexemes s = ls at h
    generalize hv : object members = v at h
    cases h with
    | string => cases hv
    | array => cases hv
    | atom v =>
      subst hv
      exact absurd (hl ▸ List.mem_singleton.mpr rfl) (object_notMem_lexemes s members)
    | object ms h =>
      cases hv
      exact ⟨_, ⟨ms, h, hl, rfl⟩, rfl⟩
  · rintro ⟨pairs, ⟨ms, h, hl, rfl⟩, rfl⟩
    rw [hl]
    exact .object ms h

end ComponentCompiler.Json
