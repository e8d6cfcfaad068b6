import Stencil.Proofs.Node.Grammar

/-!
# Forests that are not complete

A viable list of symbols is a forest with some sections left open, and it is one in exactly one way.
`OpenForest` is that way: the complete items of the outermost level, and the open sections, of which
each keeps its body and the part of its tail that has been read.  A stack of such sections has no
invariant to maintain, because a chained section is a part of the tail it stands in.

`OpenForest.read` takes the next symbol.  It is sound and complete for the grammar:

* `yield_read` — reading a symbol adds that symbol to what is derived;
* `readAll_yield` — reading the yield of a forest adds that forest.

So a derivation is determined by its yield (`eq_of_yield_eq`), a list of symbols is viable if and
only if all of it can be read (`viable_iff`), and one that does not derive is refused with the error
that reading it comes to, or with the innermost section that it leaves open (`refused_iff`).
-/

set_option autoImplicit false

namespace Stencil

/-! ## Induction on a forest and on a tail -/

/-- A forest is a list of items. -/
@[elab_as_elim, induction_eliminator]
theorem Forest.listInduction {motive : Forest → Prop} (nil : motive .nil)
    (cons : ∀ item rest, motive rest → motive (.cons item rest)) : ∀ forest, motive forest
  | .nil => nil
  | .cons item rest => cons item rest (listInduction nil cons rest)

/-- A tail is a list of chained sections with an optional branch at its end. -/
@[elab_as_elim, induction_eliminator]
theorem Tail.listInduction {motive : Tail → Prop} (nil : motive .nil)
    (otherwise : ∀ position branch, motive (.otherwise position branch))
    (chain : ∀ call position body tail, motive tail → motive (.chain call position body tail)) :
    ∀ tail, motive tail
  | .nil => nil
  | .otherwise position branch => otherwise position branch
  | .chain call position body tail =>
    chain call position body tail (listInduction nil otherwise chain tail)

/-! ## Growing -/

namespace Forest

/-- One forest behind another. -/
def append : Forest → Forest → Forest
  | .nil, more => more
  | .cons item rest, more => .cons item (rest.append more)

theorem append_nil (forest : Forest) : forest.append .nil = forest := by
  induction forest with
  | nil => rfl
  | cons item rest ih => rw [append, ih]

theorem append_assoc (first second third : Forest) :
    (first.append second).append third = first.append (second.append third) := by
  induction first with
  | nil => rfl
  | cons item rest ih => rw [append, append, append, ih]

theorem yield_append (forest more : Forest) :
    (forest.append more).yield = forest.yield ++ more.yield := by
  induction forest with
  | nil => rfl
  | cons item rest ih => rw [append, yield, yield, ih, List.append_assoc]

/-- The forest of a single item. -/
def single (item : Item) : Forest := .cons item .nil

theorem yield_single (item : Item) : (single item).yield = item.yield := by
  rw [single, yield, yield, List.append_nil]

end Forest

namespace Tail

/-- Puts a forest behind what has been read of a section, which is a body and a part of a tail. -/
def grow (more : Forest) : (body : Forest) → Tail → Forest × Tail
  | body, .nil => (body.append more, .nil)
  | body, .otherwise position branch => (body, .otherwise position (branch.append more))
  | body, .chain call position inner tail =>
    (body, .chain call position (grow more inner tail).1 (grow more inner tail).2)

theorem yield_grow (more body : Forest) (tail : Tail) :
    (grow more body tail).1.yield ++ (grow more body tail).2.yield =
      body.yield ++ tail.yield ++ more.yield := by
  induction tail generalizing body with
  | nil => simp [grow, yield, Forest.yield_append]
  | otherwise position branch => simp [grow, yield, Forest.yield_append]
  | chain call position inner tail ih => simp [grow, yield, ih inner]

theorem grow_nil (body : Forest) (tail : Tail) : grow .nil body tail = (body, tail) := by
  induction tail generalizing body with
  | nil => rw [grow, Forest.append_nil]
  | otherwise position branch => rw [grow, Forest.append_nil]
  | chain call position inner tail ih => rw [grow, ih inner]

theorem grow_append (first second body : Forest) (tail : Tail) :
    grow (first.append second) body tail =
      grow second (grow first body tail).1 (grow first body tail).2 := by
  induction tail generalizing body with
  | nil => rw [grow, grow, grow, Forest.append_assoc]
  | otherwise position branch => rw [grow, grow, grow, Forest.append_assoc]
  | chain call position inner tail ih => rw [grow, grow, grow, ih inner]

/-- Continues a tail that has no else branch with another tail. -/
def graft : Tail → Tail → Tail
  | .nil, more => more
  | .otherwise position branch, _ => .otherwise position branch
  | .chain call position body tail, more => .chain call position body (tail.graft more)

theorem graft_nil (tail : Tail) : tail.graft .nil = tail := by
  induction tail with
  | nil => rfl
  | otherwise position branch => rfl
  | chain call position body tail ih => rw [graft, ih]

theorem graft_assoc (first second third : Tail) :
    (first.graft second).graft third = first.graft (second.graft third) := by
  induction first with
  | nil => rfl
  | otherwise position branch => rfl
  | chain call position body tail ih => rw [graft, graft, graft, ih]

theorem yield_graft {tail : Tail} (h : tail.hasElse = false) (more : Tail) :
    (tail.graft more).yield = tail.yield ++ more.yield := by
  induction tail with
  | nil => rfl
  | otherwise position branch => exact absurd h (by simp [hasElse])
  | chain call position body tail ih => simp [graft, yield, ih h]

theorem hasElse_graft {tail : Tail} (h : tail.hasElse = false) (more : Tail) :
    (tail.graft more).hasElse = more.hasElse := by
  induction tail with
  | nil => rfl
  | otherwise position branch => exact absurd h (by simp [hasElse])
  | chain call position body tail ih => exact ih h

/-- What grows a tail and leaves the body before it alone also does so behind another tail. -/
theorem grow_graft {tail : Tail} (h : tail.hasElse = false) {part grown : Tail} {more : Forest}
    (hpart : ∀ body, grow more body part = (body, grown)) (body : Forest) :
    grow more body (tail.graft part) = (body, tail.graft grown) := by
  induction tail generalizing body with
  | nil => exact hpart body
  | otherwise position branch => exact absurd h (by simp [hasElse])
  | chain call position inner tail ih => rw [graft, grow, ih h inner, graft]

/-- The tail that begins with an else tag behind which nothing has been read. -/
def ofElse (position : Position) : Option Call → Tail
  | none => .otherwise position .nil
  | some call => .chain call position .nil .nil

theorem yield_ofElse (position : Position) (call : Option Call) :
    (ofElse position call).yield = [.otherwise call position] := by
  cases call <;> rfl

end Tail

/-! ## Forests with open sections -/

/-- A section whose closing tag has not been read. -/
structure OpenItem where
  /-- Its opening tag. -/
  heading : Heading
  /-- Its body. -/
  body : Forest
  /-- What has been read of its tail. -/
  tail : Tail

namespace OpenItem

/-- The symbols that have been read of a section. -/
def yield (o : OpenItem) : List Symbol :=
  .opening o.heading :: (o.body.yield ++ o.tail.yield)

/-- Puts a forest behind what has been read of a section. -/
def push (o : OpenItem) (more : Forest) : OpenItem :=
  ⟨o.heading, (o.tail.grow more o.body).1, (o.tail.grow more o.body).2⟩

theorem yield_push (o : OpenItem) (more : Forest) :
    (o.push more).yield = o.yield ++ more.yield := by
  rw [yield, push, Tail.yield_grow, yield, List.cons_append]

theorem push_nil (o : OpenItem) : o.push .nil = o := by
  rw [push, Tail.grow_nil]

theorem push_append (o : OpenItem) (first second : Forest) :
    o.push (first.append second) = (o.push first).push second := by
  rw [push, push, push, Tail.grow_append]

/-- The symbols of a stack of open sections, the innermost of which is given first. -/
def yieldAll : List OpenItem → List Symbol
  | [] => []
  | o :: outer => yieldAll outer ++ o.yield

end OpenItem

/-- A forest with some sections left open. -/
structure OpenForest where
  /-- The items of the outermost level. -/
  root : Forest
  /-- The open sections, innermost first. -/
  opened : List OpenItem

namespace OpenForest

/-- Nothing has been read. -/
def empty : OpenForest := ⟨.nil, []⟩

/-- The symbols that have been read. -/
def yield (P : OpenForest) : List Symbol :=
  P.root.yield ++ OpenItem.yieldAll P.opened

/-- Puts a forest behind what has been read. -/
def push (P : OpenForest) (more : Forest) : OpenForest :=
  match P.opened with
  | [] => ⟨P.root.append more, []⟩
  | o :: outer => ⟨P.root, o.push more :: outer⟩

theorem yield_push (P : OpenForest) (more : Forest) :
    (P.push more).yield = P.yield ++ more.yield := by
  obtain ⟨root, _ | ⟨o, outer⟩⟩ := P
  · simp [push, yield, OpenItem.yieldAll, Forest.yield_append]
  · simp [push, yield, OpenItem.yieldAll, OpenItem.yield_push]

theorem push_nil (P : OpenForest) : P.push .nil = P := by
  obtain ⟨root, _ | ⟨o, outer⟩⟩ := P
  · simp only [push, Forest.append_nil]
  · simp only [push, OpenItem.push_nil]

theorem push_append (P : OpenForest) (first second : Forest) :
    P.push (first.append second) = (P.push first).push second := by
  obtain ⟨root, _ | ⟨o, outer⟩⟩ := P
  · simp only [push, Forest.append_assoc]
  · simp only [push, OpenItem.push_append]

/-- Takes the next symbol. -/
def read (P : OpenForest) : Symbol → Except TemplateError OpenForest
  | .leaf leaf => .ok (P.push (.single (.leaf leaf)))
  | .opening heading => .ok ⟨P.root, ⟨heading, .nil, .nil⟩ :: P.opened⟩
  | .otherwise call position =>
    match P.opened with
    | [] => .error (.malformed .elseOutside position)
    | o :: outer =>
      if o.tail.hasElse then
        .error (.malformed (.duplicateElse (o.tail.innermostCall o.heading.call).head.source)
          position)
      else .ok ⟨P.root, ⟨o.heading, o.body, o.tail.graft (.ofElse position call)⟩ :: outer⟩
  | .closing name position =>
    match P.opened with
    | [] => .error (.mismatchedSection none name position)
    | o :: outer =>
      if o.heading.name ≠ name then
        .error (.mismatchedSection (some o.heading.name) name position)
      else .ok (push ⟨P.root, outer⟩ (.single (.block o.heading o.body o.tail position)))

/-- Takes some symbols one by one. -/
def readAll (P : OpenForest) (w : List Symbol) : Except TemplateError OpenForest :=
  w.foldlM read P

theorem readAll_nil (P : OpenForest) : P.readAll [] = .ok P := rfl

theorem readAll_cons (P : OpenForest) (x : Symbol) (w : List Symbol) :
    P.readAll (x :: w) = (P.read x).bind fun P => P.readAll w := List.foldlM_cons

theorem readAll_append (P : OpenForest) (v w : List Symbol) :
    P.readAll (v ++ w) = (P.readAll v).bind fun P => P.readAll w := List.foldlM_append

/-! ## Reading is sound -/

/-- **Reading is sound**: a symbol that is read is added to what is derived. -/
theorem yield_read {P Q : OpenForest} {x : Symbol} (h : P.read x = .ok Q) :
    Q.yield = P.yield ++ [x] := by
  obtain ⟨root, opened⟩ := P
  cases x with
  | leaf leaf =>
    obtain rfl := Except.ok.inj h
    rw [yield_push, Forest.yield_single, Item.yield]
  | opening heading =>
    obtain rfl := Except.ok.inj h
    simp [yield, OpenItem.yieldAll, OpenItem.yield, Forest.yield, Tail.yield]
  | otherwise call position =>
    obtain _ | ⟨o, outer⟩ := opened
    · exact absurd h (by simp [read])
    · simp only [read] at h
      split at h
      · exact absurd h (by simp)
      · next helse =>
        obtain rfl := Except.ok.inj h
        simp [yield, OpenItem.yieldAll, OpenItem.yield, Tail.yield_ofElse,
          Tail.yield_graft (Bool.eq_false_iff.2 helse)]
  | closing name position =>
    obtain _ | ⟨o, outer⟩ := opened
    · exact absurd h (by simp [read])
    · simp only [read] at h
      split at h
      · exact absurd h (by simp)
      · next hname =>
        obtain rfl := Except.ok.inj h
        rw [ne_eq, not_not] at hname
        rw [yield_push, Forest.yield_single, Item.yield, hname]
        simp [yield, OpenItem.yieldAll, OpenItem.yield]

theorem yield_readAll {P Q : OpenForest} {w : List Symbol} (h : P.readAll w = .ok Q) :
    Q.yield = P.yield ++ w := by
  induction w generalizing P with
  | nil =>
    obtain rfl := Except.ok.inj h
    rw [List.append_nil]
  | cons x w ih =>
    rw [readAll_cons] at h
    cases hx : P.read x with
    | error e => rw [hx] at h; exact absurd h (by simp [Except.bind])
    | ok R =>
      rw [hx] at h
      rw [ih h, yield_read hx, List.append_assoc, List.singleton_append]

/-! ## Reading is complete -/

theorem readAll_cons_of_ok {P Q : OpenForest} {x : Symbol} (h : P.read x = .ok Q)
    (w : List Symbol) : P.readAll (x :: w) = Q.readAll w := by
  rw [readAll_cons, h, Except.bind]

theorem readAll_append_of_ok {P Q : OpenForest} {v : List Symbol} (h : P.readAll v = .ok Q)
    (w : List Symbol) : P.readAll (v ++ w) = Q.readAll w := by
  rw [readAll_append, h, Except.bind]

/-- A tail that may go on takes an else tag. -/
theorem read_otherwise {o : OpenItem} (h : o.tail.hasElse = false) (root : Forest)
    (outer : List OpenItem) (call : Option Call) (position : Position) :
    read ⟨root, o :: outer⟩ (.otherwise call position) =
      .ok ⟨root, ⟨o.heading, o.body, o.tail.graft (.ofElse position call)⟩ :: outer⟩ := by
  simp only [read, h, Bool.false_eq_true, if_false]

/-- A section takes its own closing tag. -/
theorem read_closing (root : Forest) (o : OpenItem) (outer : List OpenItem) (position : Position) :
    read ⟨root, o :: outer⟩ (.closing o.heading.name position) =
      .ok (push ⟨root, outer⟩ (.single (.block o.heading o.body o.tail position))) := by
  simp only [read, ne_eq, not_true_eq_false, if_false]

/-- Behind an else tag, what is read goes into the branch that the tag began. -/
theorem push_graft {o : OpenItem} (h : o.tail.hasElse = false) (part grown : Tail) (more : Forest)
    (hpart : ∀ body, part.grow more body = (body, grown)) (root : Forest)
    (outer : List OpenItem) :
    push ⟨root, ⟨o.heading, o.body, o.tail.graft part⟩ :: outer⟩ more =
      ⟨root, ⟨o.heading, o.body, o.tail.graft grown⟩ :: outer⟩ := by
  simp only [push, OpenItem.push, Tail.grow_graft h hpart]

mutual

/-- **Reading is complete**: the yield of a forest is read as that forest. -/
theorem readAll_yield : ∀ (forest : Forest) (P : OpenForest),
    P.readAll forest.yield = .ok (P.push forest)
  | .nil, P => by rw [Forest.yield, readAll_nil, push_nil]
  | .cons item rest, P => by
    rw [Forest.yield, readAll_append_of_ok (readAll_yield_item item P), readAll_yield rest,
      ← push_append]
    rfl

/-- The yield of an item is read as that item. -/
theorem readAll_yield_item : ∀ (item : Item) (P : OpenForest),
    P.readAll item.yield = .ok (P.push (.single item))
  | .leaf leaf, P => by
    rw [Item.yield, readAll_cons_of_ok (Q := P.push (.single (.leaf leaf))) rfl, readAll_nil]
  | .block heading body tail closedAt, P => by
    have hopening : P.read (.opening heading) = .ok ⟨P.root, ⟨heading, .nil, .nil⟩ :: P.opened⟩ :=
      rfl
    have hbody : push ⟨P.root, ⟨heading, .nil, .nil⟩ :: P.opened⟩ body =
        ⟨P.root, ⟨heading, body, .nil⟩ :: P.opened⟩ := rfl
    have htail := readAll_yield_tail tail P.root ⟨heading, body, .nil⟩ P.opened rfl
    have hclosing := read_closing P.root ⟨heading, body, tail⟩ P.opened closedAt
    have hbodyRead := readAll_yield body ⟨P.root, ⟨heading, .nil, .nil⟩ :: P.opened⟩
    rw [hbody] at hbodyRead
    rw [Item.yield, readAll_cons_of_ok hopening, List.append_assoc,
      readAll_append_of_ok hbodyRead, readAll_append_of_ok htail, Tail.graft,
      readAll_cons_of_ok hclosing, readAll_nil]

/-- The yield of a tail is read as the rest of the tail of the innermost section. -/
theorem readAll_yield_tail : ∀ (tail : Tail) (root : Forest) (o : OpenItem)
    (outer : List OpenItem), o.tail.hasElse = false →
    readAll ⟨root, o :: outer⟩ tail.yield =
      .ok ⟨root, ⟨o.heading, o.body, o.tail.graft tail⟩ :: outer⟩
  | .nil, root, o, outer, _ => by rw [Tail.yield, readAll_nil, Tail.graft_nil]
  | .otherwise position branch, root, o, outer, h => by
    have helse := read_otherwise h root outer none position
    have hbranch := push_graft h (.otherwise position .nil) (.otherwise position branch) branch
      (fun _ => rfl) root outer
    rw [Tail.yield, readAll_cons_of_ok helse, readAll_yield branch, ← hbranch]
    rfl
  | .chain call position body tail, root, o, outer, h => by
    have helse := read_otherwise h root outer (some call) position
    have hbody := push_graft h (.chain call position .nil .nil) (.chain call position body .nil)
      body (fun _ => rfl) root outer
    have hbodyRead := readAll_yield body
      ⟨root, ⟨o.heading, o.body, o.tail.graft (.chain call position .nil .nil)⟩ :: outer⟩
    rw [hbody] at hbodyRead
    have hopen : (o.tail.graft (.chain call position body .nil)).hasElse = false :=
      Tail.hasElse_graft h _
    have htail := readAll_yield_tail tail root
      ⟨o.heading, o.body, o.tail.graft (.chain call position body .nil)⟩ outer hopen
    rw [Tail.yield, readAll_cons_of_ok helse, Tail.ofElse, readAll_append_of_ok hbodyRead, htail,
      Tail.graft_assoc]
    rfl

end

/-- The yield of a forest is read as that forest, with nothing left open. -/
theorem readAll_empty (forest : Forest) : empty.readAll forest.yield = .ok ⟨forest, []⟩ :=
  readAll_yield forest empty

/-- **A derivation is determined by what it derives.** -/
theorem eq_of_yield_eq {first second : Forest} (h : first.yield = second.yield) :
    first = second := by
  have hfirst := readAll_empty first
  rw [h, readAll_empty second] at hfirst
  exact (congrArg root (Except.ok.inj hfirst)).symm

/-! ## Viable lists -/

theorem length_opened_push (P : OpenForest) (more : Forest) :
    (P.push more).opened.length = P.opened.length := by
  obtain ⟨root, _ | ⟨o, outer⟩⟩ := P
  · rfl
  · rfl

/-- What has been read can be continued until nothing is left open. -/
theorem exists_readAll_closed (P : OpenForest) :
    ∃ w forest, P.readAll w = .ok ⟨forest, []⟩ := by
  obtain ⟨n, hn⟩ : ∃ n, P.opened.length = n := ⟨_, rfl⟩
  induction n generalizing P with
  | zero =>
    obtain ⟨root, opened⟩ := P
    obtain rfl := List.length_eq_zero_iff.1 hn
    exact ⟨[], root, rfl⟩
  | succ n ih =>
    obtain ⟨root, _ | ⟨o, outer⟩⟩ := P
    · exact absurd hn (by simp)
    · have hclosing := read_closing root o outer .none
      have hlength := (length_opened_push ⟨root, outer⟩
        (.single (.block o.heading o.body o.tail .none))).trans (Nat.succ.inj hn)
      obtain ⟨w, forest, hw⟩ := ih _ hlength
      exact ⟨.closing o.heading.name .none :: w, forest,
        (readAll_cons_of_ok hclosing w).trans hw⟩

/-- A list derives if and only if it can be read and leaves nothing open. -/
theorem yield_eq_iff {forest : Forest} {w : List Symbol} :
    forest.yield = w ↔ empty.readAll w = .ok ⟨forest, []⟩ := by
  constructor
  · rintro rfl
    exact readAll_empty forest
  · intro h
    have hyield := yield_readAll h
    rw [yield, OpenItem.yieldAll, List.append_nil] at hyield
    exact hyield

theorem derives_iff {w : List Symbol} :
    Derives w ↔ ∃ forest, empty.readAll w = .ok ⟨forest, []⟩ :=
  exists_congr fun _ => yield_eq_iff

/-- **A list is viable** if and only if all of it can be read. -/
theorem viable_iff {w : List Symbol} : Viable w ↔ ∃ P, empty.readAll w = .ok P := by
  constructor
  · rintro ⟨rest, hrest⟩
    obtain ⟨forest, hforest⟩ := derives_iff.1 hrest
    rw [readAll_append] at hforest
    cases hw : empty.readAll w with
    | error e => rw [hw] at hforest; exact absurd hforest (by simp [Except.bind])
    | ok P => exact ⟨P, rfl⟩
  · rintro ⟨P, hP⟩
    obtain ⟨rest, forest, hrest⟩ := exists_readAll_closed P
    exact ⟨rest, derives_iff.2 ⟨forest, (readAll_append_of_ok hP rest).trans hrest⟩⟩

/-- The innermost open section is the one whose opening tag is not closed again. -/
theorem innermostOpen_of_readAll {w : List Symbol} {root : Forest} {o : OpenItem}
    {outer : List OpenItem} (h : empty.readAll w = .ok ⟨root, o :: outer⟩) :
    InnermostOpen w o.heading o.tail := by
  have hyield := yield_readAll h
  refine ⟨root.yield ++ OpenItem.yieldAll outer, o.body, ?_⟩
  rw [← List.nil_append w]
  refine hyield.symm.trans ?_
  rw [yield, OpenItem.yieldAll, ← List.append_assoc]
  rfl

/-- **The innermost open section of a viable list is the one on top of the stack**; so there is only
one. -/
theorem readAll_of_innermostOpen {w : List Symbol} {heading : Heading} {tail : Tail}
    (hw : Viable w) (h : InnermostOpen w heading tail) :
    ∃ root body outer, empty.readAll w = .ok ⟨root, ⟨heading, body, tail⟩ :: outer⟩ := by
  obtain ⟨before, body, rfl⟩ := h
  obtain ⟨Q, hQ⟩ := viable_iff.1 hw
  rw [readAll_append] at hQ
  cases hbefore : empty.readAll before with
  | error e => rw [hbefore] at hQ; exact absurd hQ (by simp [Except.bind])
  | ok P =>
    have hopening : P.read (.opening heading) = .ok ⟨P.root, ⟨heading, .nil, .nil⟩ :: P.opened⟩ :=
      rfl
    have hbody := readAll_yield body ⟨P.root, ⟨heading, .nil, .nil⟩ :: P.opened⟩
    have htail := readAll_yield_tail tail P.root ⟨heading, body, .nil⟩ P.opened rfl
    refine ⟨P.root, body, P.opened, ?_⟩
    rw [readAll_append_of_ok hbefore, readAll_cons_of_ok hopening, readAll_append_of_ok hbody]
    exact htail

/-- A symbol that cannot be read is blocked by what has been read. -/
theorem blocked_of_read {w : List Symbol} {P : OpenForest} (hP : empty.readAll w = .ok P)
    {x : Symbol} {e : TemplateError} (h : P.read x = .error e) : Blocked w x e := by
  obtain ⟨root, opened⟩ := P
  cases x with
  | leaf leaf => exact absurd h (by simp [read])
  | opening heading => exact absurd h (by simp [read])
  | otherwise call position =>
    obtain _ | ⟨o, outer⟩ := opened
    · obtain rfl := Except.error.inj h
      exact .otherwiseOutside (derives_iff.2 ⟨root, hP⟩)
    · simp only [read] at h
      split at h
      · next helse =>
        obtain rfl := Except.error.inj h
        exact .otherwise (innermostOpen_of_readAll hP) helse
      · exact absurd h (by simp)
  | closing name position =>
    obtain _ | ⟨o, outer⟩ := opened
    · obtain rfl := Except.error.inj h
      exact .closingOutside (derives_iff.2 ⟨root, hP⟩)
    · simp only [read] at h
      split at h
      · next hname =>
        obtain rfl := Except.error.inj h
        exact .closing (innermostOpen_of_readAll hP) hname
      · exact absurd h (by simp)

/-- What is blocked cannot be read, and the error is the one that is called for. -/
theorem read_of_blocked {w : List Symbol} {P : OpenForest} (hP : empty.readAll w = .ok P)
    {x : Symbol} {e : TemplateError} (h : Blocked w x e) : P.read x = .error e := by
  have hviable : Viable w := viable_iff.2 ⟨P, hP⟩
  cases h with
  | closingOutside hw | otherwiseOutside hw =>
    obtain ⟨forest, hforest⟩ := derives_iff.1 hw
    obtain rfl := Except.ok.inj (hP.symm.trans hforest)
    rfl
  | closing hopen hname =>
    obtain ⟨root, body, outer, hread⟩ := readAll_of_innermostOpen hviable hopen
    obtain rfl := Except.ok.inj (hP.symm.trans hread)
    exact if_pos hname
  | otherwise hopen helse =>
    obtain ⟨root, body, outer, hread⟩ := readAll_of_innermostOpen hviable hopen
    obtain rfl := Except.ok.inj (hP.symm.trans hread)
    exact if_pos helse

/-! ## Lists that do not derive -/

/-- **A list that cannot be read** is refused at the first symbol that no viable list can begin
with. -/
theorem refused_of_readAll {w : List Symbol} {e : TemplateError}
    (h : empty.readAll w = .error e) : Refused w e := by
  -- what has been read grows from nothing up to the symbol that is refused
  suffices hstep : ∀ (rest before : List Symbol) (P : OpenForest), empty.readAll before = .ok P →
      P.readAll rest = .error e → Refused (before ++ rest) e from hstep w [] empty rfl h
  intro rest
  induction rest with
  | nil => intro before P _ hrest; exact absurd hrest (by simp [readAll_nil])
  | cons x rest ih =>
    intro before P hP hrest
    cases hx : P.read x with
    | error e' =>
      rw [readAll_cons, hx] at hrest
      obtain rfl := Except.error.inj hrest
      refine .symbol (viable_iff.2 ⟨P, hP⟩) ?_ (blocked_of_read hP hx)
      intro hviable
      obtain ⟨Q, hQ⟩ := viable_iff.1 hviable
      rw [readAll_append_of_ok hP, readAll_cons, hx] at hQ
      exact absurd hQ (by simp [Except.bind])
    | ok Q =>
      rw [readAll_cons_of_ok hx] at hrest
      have hbefore : empty.readAll (before ++ [x]) = .ok Q := by
        rw [readAll_append_of_ok hP, readAll_cons_of_ok hx, readAll_nil]
      have hrefused := ih (before ++ [x]) Q hbefore hrest
      rwa [List.append_assoc, List.singleton_append] at hrefused

/-- A list that leaves a section open is refused at the end. -/
theorem refused_of_opened {w : List Symbol} {root : Forest} {o : OpenItem}
    {outer : List OpenItem} (h : empty.readAll w = .ok ⟨root, o :: outer⟩) :
    Refused w (.unclosedSection o.heading.name o.heading.position) := by
  refine .unclosed (viable_iff.2 ⟨_, h⟩) ?_ (innermostOpen_of_readAll h)
  intro hderives
  obtain ⟨forest, hforest⟩ := derives_iff.1 hderives
  rw [h] at hforest
  exact absurd (congrArg opened (Except.ok.inj hforest)) (by simp)

/-- **A list is refused** if and only if it cannot be read or leaves a section open, and with the
error of that only. -/
theorem refused_iff {w : List Symbol} {e : TemplateError} :
    Refused w e ↔ empty.readAll w = .error e ∨
      ∃ root o outer, empty.readAll w = .ok ⟨root, o :: outer⟩ ∧
        e = .unclosedSection o.heading.name o.heading.position := by
  constructor
  · intro h
    cases h with
    | @symbol before after x e hbefore hx he =>
      obtain ⟨P, hP⟩ := viable_iff.1 hbefore
      refine .inl ?_
      rw [readAll_append_of_ok hP, readAll_cons, read_of_blocked hP he, Except.bind]
    | unclosed hw hderives hopen =>
      obtain ⟨root, body, outer, hread⟩ := readAll_of_innermostOpen hw hopen
      exact .inr ⟨root, _, outer, hread, rfl⟩
  · rintro (hread | ⟨root, o, outer, hread, rfl⟩)
    · exact refused_of_readAll hread
    · exact refused_of_opened hread

end OpenForest

end Stencil
