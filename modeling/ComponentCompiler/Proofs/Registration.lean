import ComponentCompiler.Proofs.Catalogs

/-! A catalog in use: whatever was registered in it and looked up before, it lists the names in the
order in which they first came, and gives for each of them the component that came last. -/

namespace ComponentCompiler.Catalog

inductive Call where
  | register (unit : SourceUnit)
  | names
  | get (name : Utf16)
  | contains (name : Utf16)
  | size
  | components

inductive Answer where
  | component (component : Component)
  | names (names : List Utf16)
  | found (component? : Option Component)
  | contained (isThere : Bool)
  | size (size : Nat)
  | components (components : List Component)

def perform (catalog : Catalog) : Call → Catalog × Answer
  | .register unit => (catalog.register unit, .component (.ofUnit unit))
  | .names => (catalog, .names catalog.names)
  | .get name => (catalog, .found (catalog.get? name))
  | .contains name => (catalog, .contained (catalog.contains name))
  | .size => (catalog, .size catalog.size)
  | .components => (catalog, .components catalog.components)

def performAll (calls : List Call) : Catalog :=
  calls.foldl (fun catalog call => (catalog.perform call).1) empty

def Call.unit? : Call → Option SourceUnit
  | .register unit => some unit
  | _ => none

def registered (calls : List Call) : List SourceUnit :=
  calls.filterMap Call.unit?

lemma performAll_concat (calls : List Call) (call : Call) :
    performAll (calls ++ [call]) = ((performAll calls).perform call).1 := by
  rw [performAll, List.foldl_append]
  rfl

lemma perform_fst (catalog : Catalog) (call : Call) :
    (catalog.perform call).1 = (call.unit?.map catalog.register).getD catalog := by
  cases call <;> rfl

lemma performAll_eq_ofUnits (calls : List Call) :
    performAll calls = ofUnits (registered calls) := by
  induction calls using List.reverseRecOn with
  | nil => rfl
  | append_singleton calls call ih =>
    rw [performAll_concat, perform_fst, ih, registered, registered, List.filterMap_append]
    cases hc : call.unit? with
    | none => simp [hc]
    | some unit => simp [hc, ofUnits_concat]

lemma nodup_names_ofUnits (units : List SourceUnit) : (ofUnits units).names.Nodup := by
  rw [names, entries_ofUnits]
  exact Keyed.nodup_keys_ofPairs _

lemma mem_names_ofUnits (units : List SourceUnit) (name : Utf16) :
    name ∈ (ofUnits units).names ↔ ∃ unit ∈ units, unit.name = name := by
  rw [names, entries_ofUnits, Keyed.mem_keys_ofPairs, List.map_map, List.mem_map]
  rfl

lemma pairwise_names_ofUnits (units : List SourceUnit) :
    (ofUnits units).names.Pairwise fun a b =>
      (units.map SourceUnit.name).idxOf a < (units.map SourceUnit.name).idxOf b := by
  have hpairs := Keyed.pairwise_keys_ofPairs
    (units.map fun unit => (unit.name, Component.ofUnit unit))
  rwa [← entries_ofUnits, List.map_map] at hpairs

lemma get?_ofUnits_eq_some_iff {units : List SourceUnit} {name : Utf16} {component : Component} :
    (ofUnits units).get? name = some component ↔ ∃ before unit after,
      units = before ++ unit :: after ∧ unit.name = name ∧
        (∀ later ∈ after, later.name ≠ name) ∧ component = .ofUnit unit := by
  rw [get?, entries_ofUnits, Keyed.find?_ofPairs_eq_some_iff]
  constructor
  · rintro ⟨before, after, hp, ha⟩
    obtain ⟨before, rest, rfl, rfl, hr⟩ := List.map_eq_append_iff.mp hp
    obtain ⟨unit, after, rfl, hu, rfl⟩ := List.map_eq_cons_iff.mp hr
    obtain ⟨hn, hc⟩ := Prod.mk.inj hu
    refine ⟨before, unit, after, rfl, hn, ?_, hc.symm⟩
    intro later hl
    exact ha _ (List.mem_map_of_mem hl)
  · rintro ⟨before, unit, after, rfl, rfl, ha, rfl⟩
    refine ⟨_, _, List.map_append, ?_⟩
    intro p hp
    obtain ⟨later, hl, rfl⟩ := List.mem_map.mp hp
    exact ha later hl

lemma contains_iff {catalog : Catalog} {name : Utf16} :
    catalog.contains name = true ↔ name ∈ catalog.names := by
  rw [contains, get?, names, ← not_iff_not, Bool.not_eq_true, Option.isSome_eq_false_iff,
    Option.isNone_iff_eq_none]
  exact Keyed.find?_eq_none_iff

structure Records (units : List SourceUnit) (catalog : Catalog) : Prop where
  nodup : catalog.names.Nodup
  mem : ∀ name, name ∈ catalog.names ↔ ∃ unit ∈ units, unit.name = name
  order : catalog.names.Pairwise fun a b =>
    (units.map SourceUnit.name).idxOf a < (units.map SourceUnit.name).idxOf b
  last : ∀ name component, catalog.get? name = some component ↔ ∃ before unit after,
    units = before ++ unit :: after ∧ unit.name = name ∧
      (∀ later ∈ after, later.name ≠ name) ∧ component = .ofUnit unit
  absent : ∀ name, catalog.get? name = none ↔ ∀ unit ∈ units, unit.name ≠ name
  contains : ∀ name, catalog.contains name = true ↔ name ∈ catalog.names
  size : catalog.size = catalog.names.length
  components : catalog.components.map some = catalog.names.map catalog.get?
  own : ∀ name component, catalog.get? name = some component →
    component.name = name ∧ component.propNames = Template.propNames component.template

lemma records_ofUnits (units : List SourceUnit) : Records units (ofUnits units) where
  nodup := nodup_names_ofUnits units
  mem := mem_names_ofUnits units
  order := pairwise_names_ofUnits units
  last _ _ := get?_ofUnits_eq_some_iff
  absent name := by
    have h := mem_names_ofUnits units name
    rw [get?, Keyed.find?_eq_none_iff]
    exact (not_congr h).trans (by simp)
  contains _ := contains_iff
  size := by simp [Catalog.size, names, Keyed.keys]
  components := (Keyed.map_find?_keys (nodup_names_ofUnits units)).symm
  own name component h := by
    obtain ⟨-, unit, -, -, rfl, -, rfl⟩ := get?_ofUnits_eq_some_iff.mp h
    exact ⟨rfl, rfl⟩

def firstNames (units : List SourceUnit) : List Utf16 :=
  (units.map SourceUnit.name).reverse.dedup.reverse

def last? (units : List SourceUnit) (name : Utf16) : Option Component :=
  (units.reverse.find? (·.name = name)).map .ofUnit

def Call.answer (units : List SourceUnit) : Call → Answer
  | .register unit => .component (.ofUnit unit)
  | .names => .names (firstNames units)
  | .get name => .found (last? units name)
  | .contains name => .contained (units.any (·.name = name))
  | .size => .size (firstNames units).length
  | .components => .components ((firstNames units).filterMap (last? units))

lemma names_eq_firstNames (units : List SourceUnit) : (ofUnits units).names = firstNames units := by
  rw [names, entries_ofUnits, Keyed.keys_ofPairs, List.map_map]
  rfl

lemma get?_eq_last? (units : List SourceUnit) (name : Utf16) :
    (ofUnits units).get? name = last? units name := by
  rw [get?, entries_ofUnits, Keyed.find?_ofPairs, ← List.map_reverse, List.find?_map, last?,
    Option.map_map]
  rfl

lemma contains_eq_any (units : List SourceUnit) (name : Utf16) :
    (ofUnits units).contains name = units.any (·.name = name) := by
  rw [Bool.eq_iff_iff, contains_iff, mem_names_ofUnits]
  simp

lemma components_eq_filterMap (units : List SourceUnit) :
    (ofUnits units).components = (firstNames units).filterMap (last? units) := by
  rw [← names_eq_firstNames, ← funext (get?_eq_last? units)]
  exact (Keyed.filterMap_find?_keys (nodup_names_ofUnits units)).symm

lemma answer_perform (units : List SourceUnit) (call : Call) :
    ((ofUnits units).perform call).2 = call.answer units := by
  cases call with
  | register unit => rfl
  | names => rw [perform, Call.answer, names_eq_firstNames]
  | get name => rw [perform, Call.answer, get?_eq_last?]
  | contains name => rw [perform, Call.answer, contains_eq_any]
  | size => rw [perform, Call.answer, (records_ofUnits units).size, names_eq_firstNames]
  | components => rw [perform, Call.answer, components_eq_filterMap]

/-- At every point of a sequence of calls a catalog is what the registrations up to there have made
of it: the lookups between them have changed nothing, and the registrations alone decide what the
next call is answered. -/
theorem performAll_records (calls : List Call) :
    performAll calls = ofUnits (registered calls) ∧
      Records (registered calls) (performAll calls) ∧
      ∀ call, ((performAll calls).perform call).2 = call.answer (registered calls) := by
  rw [performAll_eq_ofUnits]
  exact ⟨rfl, records_ofUnits _, answer_perform _⟩

end ComponentCompiler.Catalog
