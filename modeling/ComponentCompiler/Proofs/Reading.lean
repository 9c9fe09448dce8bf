import Mathlib.Data.List.Basic

/-! Reading a list from the front: a mark that must stand there, and as many items as follow one
another. -/

namespace ComponentCompiler.Reading

variable {α β : Type}

@[simp] lemma dropPrefix?_append [DecidableEq β] (mark rest : List β) :
    (mark ++ rest).dropPrefix? mark = some rest :=
  List.dropPrefix?_append_of_beq rest (by simp)

def many (item? : List β → Option (α × List β)) (s : List β) : List α × List β :=
  match item? s with
  | none => ([], s)
  | some (a, rest) =>
    if rest.length < s.length then
      let (more, last) := many item? rest
      (a :: more, last)
    else ([], s)
termination_by s.length

lemma many_flatMap {item? : List β → Option (α × List β)} (print : α → List β) {rest : List β}
    (hitem : ∀ a s, item? (print a ++ s) = some (a, s)) (hprint : ∀ a, print a ≠ [])
    (hrest : item? rest = none) (items : List α) :
    many item? (items.flatMap print ++ rest) = (items, rest) := by
  induction items with
  | nil =>
    rw [List.flatMap_nil, List.nil_append, many, hrest]
  | cons a items ih =>
    have hl : (items.flatMap print ++ rest).length <
        (print a ++ (items.flatMap print ++ rest)).length := by
      have := List.length_pos_of_ne_nil (hprint a)
      simp only [List.length_append]
      omega
    rw [List.flatMap_cons, List.append_assoc, many, hitem]
    simp only [hl, if_true, ih]

end ComponentCompiler.Reading
