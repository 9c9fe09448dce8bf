import ComponentCompiler.Component.Catalog
import ComponentCompiler.Proofs.KeyedPairs

/-! Catalogs that registration builds: every component stands under its own name, and units with
distinct names all stay, in their order. -/

namespace ComponentCompiler.Catalog

lemma ofUnits_concat (units : List SourceUnit) (unit : SourceUnit) :
    ofUnits (units ++ [unit]) = (ofUnits units).register unit := by
  rw [ofUnits, List.foldl_append]
  rfl

lemma entries_ofUnits (units : List SourceUnit) :
    (ofUnits units).entries =
      Keyed.ofPairs (units.map fun unit => (unit.name, Component.ofUnit unit)) := by
  induction units using List.reverseRecOn with
  | nil => rfl
  | append_singleton units unit ih =>
    rw [ofUnits_concat, List.map_append, List.map_singleton, Keyed.ofPairs_concat, ← ih]
    rfl

lemma name_of_mem_ofUnits (units : List SourceUnit) :
    ∀ p ∈ (ofUnits units).entries, p.2.name = p.1 := by
  intro p hp
  rw [entries_ofUnits] at hp
  obtain ⟨unit, -, rfl⟩ := List.mem_map.mp (Keyed.mem_of_mem_ofPairs hp)
  rfl

lemma names_ofUnits (units : List SourceUnit) :
    (ofUnits units).components.map Component.name = (ofUnits units).names := by
  rw [components, names, Keyed.values, Keyed.keys, List.map_map]
  exact List.map_congr_left (name_of_mem_ofUnits units)

lemma entries_ofUnits_of_nodup {units : List SourceUnit} (h : (units.map SourceUnit.name).Nodup) :
    (ofUnits units).entries = units.map fun unit => (unit.name, Component.ofUnit unit) := by
  rw [entries_ofUnits, Keyed.ofPairs_of_nodup]
  rwa [List.map_map]

end ComponentCompiler.Catalog
