import Stencil.Proofs.Node.Grammar

/-!
# Merging texts from either side

The builder of a tree adds nodes at the end of a list, which it keeps in reverse, and merges a text
with the text before it (`Node.pushTo`).  The nodes of a derivation are added at the beginning,
where a text is merged with the text behind it (`Node.prepend`).  Both make the same list
(`Node.reverse_prepend_pushTo`), because it does not matter which two of three texts that touch are
merged first.

What is merged is never empty and never follows another text, so a list that is made in this way is
tidy (`Node.allTidy_prepend`).
-/

set_option autoImplicit false

namespace Stencil

namespace Node

/-! ## At one end -/

theorem text_or_isText (node : Node) : (∃ t, node = .text t) ∨ node.isText = false := by
  cases node with
  | text t => exact .inl ⟨t, rfl⟩
  | comment content => exact .inr rfl
  | output escaped call position => exact .inr rfl
  | block inverted call body inverse position => exact .inr rfl
  | partialTag call indent position => exact .inr rfl

theorem prepend_of_isText {node : Node} (h : node.isText = false) (nodes : List Node) :
    node.prepend nodes = node :: nodes := by
  cases node with
  | text t => exact Bool.noConfusion h
  | _ => rfl

theorem prepend_cons_of_isText {second : Node} (h : second.isText = false) (first : Node)
    (nodes : List Node) : first.prepend (second :: nodes) = first :: second :: nodes := by
  cases second with
  | text t => exact Bool.noConfusion h
  | _ => cases first <;> rfl

theorem prepend_nil (node : Node) : node.prepend [] = [node] := by
  cases node <;> rfl

theorem pushTo_of_isText {node : Node} (h : node.isText = false) (nodes : List Node) :
    node.pushTo nodes = node :: nodes := by
  cases node with
  | text t => exact Bool.noConfusion h
  | _ => rfl

theorem pushTo_nil {node : Node} (h : node ≠ .text []) : node.pushTo [] = [node] := by
  rcases node.text_or_isText with ⟨_ | ⟨c, t⟩, rfl⟩ | hnode
  · exact absurd rfl h
  · rfl
  · exact pushTo_of_isText hnode []

theorem pushTo_cons_of_isText {last : Node} (h : last.isText = false) {node : Node}
    (hne : node ≠ .text []) (nodes : List Node) :
    node.pushTo (last :: nodes) = node :: last :: nodes := by
  rcases node.text_or_isText with ⟨_ | ⟨c, t⟩, rfl⟩ | hnode
  · exact absurd rfl hne
  · cases last with
    | text s => exact Bool.noConfusion h
    | _ => rfl
  · exact pushTo_of_isText hnode _

theorem pushTo_text_cons {t : Text} (ht : t ≠ []) (s : Text) (nodes : List Node) :
    (text t).pushTo (.text s :: nodes) = .text (s ++ t) :: nodes := by
  cases t with
  | nil => exact absurd rfl ht
  | cons c t => rfl

theorem prepend_append (first : Node) {nodes : List Node} (h : nodes ≠ []) (more : List Node) :
    first.prepend (nodes ++ more) = first.prepend nodes ++ more := by
  obtain ⟨second, rest, rfl⟩ := List.exists_cons_of_ne_nil h
  rcases second.text_or_isText with ⟨t, rfl⟩ | hsecond
  · cases first <;> rfl
  · rw [List.cons_append, prepend_cons_of_isText hsecond, prepend_cons_of_isText hsecond]
    rfl

theorem pushTo_append {node : Node} (hne : node ≠ .text []) {nodes : List Node} (h : nodes ≠ [])
    (more : List Node) : node.pushTo (nodes ++ more) = node.pushTo nodes ++ more := by
  obtain ⟨last, rest, rfl⟩ := List.exists_cons_of_ne_nil h
  rcases last.text_or_isText with ⟨s, rfl⟩ | hlast
  · rcases node.text_or_isText with ⟨t, rfl⟩ | hnode
    · have ht : t ≠ [] := fun h => hne (h ▸ rfl)
      rw [List.cons_append, pushTo_text_cons ht, pushTo_text_cons ht]
      rfl
    · rw [pushTo_of_isText hnode, pushTo_of_isText hnode]
      rfl
  · rw [List.cons_append, pushTo_cons_of_isText hlast hne, pushTo_cons_of_isText hlast hne]
    rfl

/-! ## From either end -/

/-- Two nodes are merged in the same way from either side. -/
theorem reverse_prepend_single {node : Node} (h : node ≠ .text []) (first : Node) :
    (first.prepend [node]).reverse = node.pushTo [first] := by
  rcases node.text_or_isText with ⟨t, rfl⟩ | hnode
  · have ht : t ≠ [] := fun h' => h (h' ▸ rfl)
    rcases first.text_or_isText with ⟨s, rfl⟩ | hfirst
    · rw [pushTo_text_cons ht]
      rfl
    · rw [prepend_of_isText hfirst, pushTo_cons_of_isText hfirst h]
      rfl
  · rw [prepend_cons_of_isText hnode, pushTo_of_isText hnode]
    rfl

/-- Three nodes are merged in the same way from either side. -/
theorem reverse_prepend_pair {node : Node} (h : node ≠ .text []) (first second : Node) :
    (first.prepend (second.prepend [node])).reverse =
      node.pushTo (first.prepend [second]).reverse := by
  rcases second.text_or_isText with ⟨s, rfl⟩ | hsecond
  · rcases node.text_or_isText with ⟨t, rfl⟩ | hnode
    · have ht : t ≠ [] := fun h' => h (h' ▸ rfl)
      rcases first.text_or_isText with ⟨f, rfl⟩ | hfirst
      · simp [prepend, pushTo_text_cons ht]
      · rw [prepend_of_isText hfirst, prepend_of_isText hfirst, List.reverse_cons,
          List.reverse_cons, List.reverse_singleton, pushTo_append h (List.cons_ne_nil _ _),
          reverse_prepend_single h]
    · rw [prepend_cons_of_isText hnode, pushTo_of_isText hnode, ← List.singleton_append,
        prepend_append first (List.cons_ne_nil _ _), List.reverse_append]
      rfl
  · rw [prepend_of_isText hsecond, prepend_cons_of_isText hsecond,
      prepend_cons_of_isText hsecond]
    exact (pushTo_cons_of_isText hsecond h [first]).symm ▸ rfl

/-- **Texts are merged in the same way from either side**, so it does not matter at which end of a
list the nodes are added. -/
theorem reverse_prepend_pushTo {node : Node} (h : node ≠ .text []) (first : Node)
    (nodes : List Node) :
    (first.prepend (node.pushTo nodes.reverse).reverse).reverse =
      node.pushTo (first.prepend nodes).reverse := by
  rcases List.eq_nil_or_concat' nodes with rfl | ⟨init, last, rfl⟩
  · rw [List.reverse_nil, pushTo_nil h, prepend_nil, List.reverse_singleton,
      reverse_prepend_single h, List.reverse_singleton]
  · have hlast : (node.pushTo (init ++ [last]).reverse).reverse = init ++ last.prepend [node] := by
      rw [List.reverse_append, List.reverse_singleton, pushTo_append h (List.cons_ne_nil _ _),
        ← reverse_prepend_single h, List.reverse_append, List.reverse_reverse,
        List.reverse_reverse]
    rw [hlast]
    by_cases hinit : init = []
    · subst hinit
      exact reverse_prepend_pair h first last
    · rw [prepend_append first hinit, prepend_append first hinit, List.reverse_append,
        List.reverse_append, List.reverse_singleton, pushTo_append h (List.cons_ne_nil _ _),
        reverse_prepend_single h]

/-! ## Tidiness -/

theorem fitsBefore_of_isText {node : Node} (h : node.isText = false) (nodes : List Node) :
    node.FitsBefore nodes := by
  cases node with
  | text t => exact Bool.noConfusion h
  | _ => trivial

/-- A tidy node in front of tidy nodes makes a tidy list. -/
theorem allTidy_prepend {node : Node} (hnode : node.Tidy) (hne : node ≠ .text [])
    {nodes : List Node} (h : AllTidy nodes) : AllTidy (node.prepend nodes) := by
  rcases node.text_or_isText with ⟨t, rfl⟩ | htext
  · have ht : t ≠ [] := fun h' => hne (h' ▸ rfl)
    rcases nodes with _ | ⟨next, rest⟩
    · exact ⟨trivial, ⟨ht, by simp⟩, trivial⟩
    rcases next.text_or_isText with ⟨s, rfl⟩ | hnext
    · obtain ⟨-, ⟨-, hrest⟩, htidy⟩ := h
      exact ⟨trivial, ⟨by simp [ht], hrest⟩, htidy⟩
    · rw [prepend_cons_of_isText hnext]
      refine ⟨trivial, ⟨ht, ?_⟩, h⟩
      rintro s hs
      obtain rfl := Option.some.inj hs
      exact Bool.noConfusion hnext
  · rw [prepend_of_isText htext]
    exact ⟨hnode, fitsBefore_of_isText htext nodes, h⟩

end Node

end Stencil
