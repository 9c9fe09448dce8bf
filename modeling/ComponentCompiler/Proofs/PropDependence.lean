import ComponentCompiler.Proofs.TemplateScanning
import ComponentCompiler.Template.Render

/-! A rendering depends on the properties that the placeholders name, on each of them and on nothing
else. -/

namespace ComponentCompiler

def Props.Unset (props : Props) (name : Text) : Prop :=
  props.find? name = none ∨ props.find? name = some .null ∨ props.find? name = some (.text [])

namespace Placeholder

variable {p : Placeholder} {props other : Props}

lemma resolve_of_unset (h : props.Unset p.name) : p.resolve props = p.default?.getD [] := by
  rw [resolve]
  rcases h with h | h | h <;> rw [h]
  rfl

lemma resolve_of_find? {v : Value} (h : props.find? p.name = some v) (hnull : v ≠ .null)
    (htext : v.toText ≠ []) : p.resolve props = v.toText := by
  rw [resolve, h]
  split
  · next hv => cases hv
  · next hv => exact (hnull (Option.some.inj hv)).elim
  · next hv =>
    obtain rfl := Option.some.inj hv
    exact if_neg htext

lemma resolve_congr (h : props.find? p.name = other.find? p.name) :
    p.resolve props = p.resolve other := by
  rw [resolve, resolve, h]

end Placeholder

namespace Template

lemma mem_propNames_iff {template name : Text} :
    name ∈ propNames template ↔ ∃ p, .hole p ∈ scan template ∧ p.name = name := by
  simp only [propNames, placeholders, List.mem_map, List.mem_filterMap]
  constructor
  · rintro ⟨p, ⟨segment, hs, hp⟩, rfl⟩
    cases segment with
    | literal s => cases hp
    | hole q =>
      obtain rfl := Option.some.inj hp
      exact ⟨q, hs, rfl⟩
  · rintro ⟨p, hs, rfl⟩
    exact ⟨p, ⟨.hole p, hs, rfl⟩, rfl⟩

lemma render_congr {template : Text} {props other : Props}
    (h : ∀ p, .hole p ∈ scan template → p.resolve props = p.resolve other) :
    render template props = render template other := by
  apply List.flatMap_congr
  intro segment hs
  cases segment with
  | literal s => rfl
  | hole p => exact h p hs

lemma render_put_of_notMem {template name : Text} (h : name ∉ propNames template) (props : Props)
    (v : Value) : render template (props.put name v) = render template props := by
  apply render_congr
  intro p hp
  apply Placeholder.resolve_congr
  apply Keyed.find?_put_of_ne
  rintro rfl
  exact h (mem_propNames_iff.mpr ⟨p, hp, rfl⟩)

lemma resolve_infix_render {template : Text} {p : Placeholder} (h : .hole p ∈ scan template)
    (props : Props) : p.resolve props <:+: render template props :=
  List.infix_of_mem_flatten (List.mem_map_of_mem (f := Segment.render props) h)

lemma render_put_ne {template name : Text} (h : name ∈ propNames template) :
    render template [] ≠
      render template (Keyed.put name (.text ('x' :: render template [])) []) := by
  obtain ⟨p, hp, rfl⟩ := mem_propNames_iff.mp h
  intro he
  -- The value is longer than the rendering in which it should stand.
  have hvalue := resolve_infix_render hp (Keyed.put p.name (.text ('x' :: render template [])) [])
  rw [Placeholder.resolve_of_find? (Keyed.find?_put_self ..) (by simp) (by simp [Value.toText]),
    ← he] at hvalue
  exact Nat.not_succ_le_self _ hvalue.length_le

lemma render_eq_self {template : Text} (h : propNames template = []) (props : Props) :
    render template props = template := by
  obtain ⟨pieces, hs, hu⟩ := exists_pieces template
  have hraw := ((hu pieces).mpr rfl).raw
  rw [render, hs, List.flatMap_map]
  refine Eq.trans ?_ hraw
  apply List.flatMap_congr
  intro piece hp
  cases piece with
  | text s => rfl
  | hole body =>
    have hmem : (Placeholder.ofBody body).name ∈ propNames template := by
      rw [mem_propNames_iff, hs]
      exact ⟨_, List.mem_map_of_mem hp, rfl⟩
    rw [h] at hmem
    cases hmem

/-- A name is among those of the template just if some value for it can be seen in some rendering.
Properties that agree on these names, or leave the same ones to their defaults, render alike, and a
template without names is its own rendering. -/
theorem propNames_exact (template : Text) :
    (∀ name, name ∈ propNames template ↔ ∃ (props : Props) (v : Value), props.keys.Nodup ∧
        render template props ≠ render template (props.put name v)) ∧
      (∀ props other : Props,
        (∀ name ∈ propNames template, props.find? name = other.find? name ∨
          props.Unset name ∧ other.Unset name) →
        render template props = render template other) ∧
      (propNames template = [] → ∀ props, render template props = template) := by
  refine ⟨fun name => ⟨fun h => ?_, ?_⟩, ?_, render_eq_self⟩
  · exact ⟨[], _, List.nodup_nil, render_put_ne h⟩
  · rintro ⟨props, v, -, hne⟩
    by_contra h
    exact hne (render_put_of_notMem h props v).symm
  · intro props other h
    apply render_congr
    intro p hp
    rcases h p.name (mem_propNames_iff.mpr ⟨p, hp, rfl⟩) with h | ⟨h, h'⟩
    · exact Placeholder.resolve_congr h
    · rw [Placeholder.resolve_of_unset h, Placeholder.resolve_of_unset h']

end Template

end ComponentCompiler
