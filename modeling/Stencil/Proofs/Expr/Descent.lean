import Stencil.Proofs.Expr.Completeness
import Stencil.Template.Depth

/-!
# Reading parameters by descent

`ArgReader` takes the tokens one by one and keeps the groups around the one it is in.  A reader that
descends keeps nothing of the kind: there is a function for each part of the grammar, and the
functions call each other and pass on the number of the token that comes next.  The end of the
tokens counts as a token of its own, and behind it there is nothing.

Such a reader can break down in two ways, by asking for a token behind the end and by going on
without having read anything, and neither is refused with a fault.  `Descent` keeps these apart, and
`Descent.look` and `Descent.andThen` are the only places where they can happen.  A third thing can
stop it that is no fault of the text: it is inside as many groups as there is room for, and the next
one begins (`Descent.enter`).

The first two do not happen, and the third does exactly if more groups are open at once than there
is room for.  Else the descent comes to the result of the reader that goes token by token
(`Call.descend?_eq`, `PartialCall.descend?_eq`).  `Descent.Agrees` says so of a part of the descent,
with all that the reader has read before it.
-/

set_option autoImplicit false

namespace Stencil

/-- Why a text is not read to its end by descent. -/
inductive Descent.Stop where
  /-- The text is malformed. -/
  | fault (fault : SyntaxFault)
  /-- There is no room for another group. -/
  | outOfRoom

/-- What reading by descent comes to: nothing if it breaks down, and otherwise why it has stopped,
or what has been read with the number of the token behind it. -/
abbrev Descent (α : Type) := Option (Except Descent.Stop (α × Nat))

namespace Descent

variable {α β : Type} {source : Text} {tokens : List ArgToken}

/-- Stops at a fault. -/
def ofFault (fault : SyntaxFault) : Descent α :=
  some (.error (.fault fault))

/-- Refuses the parameters. -/
def refuse (source : Text) (fault : ArgumentFault) : Descent α :=
  ofFault (.arguments fault source)

/-- Goes into a group, if there is room for it. -/
def enter (room : Nat) (group : (less : Nat) → Descent α) : Descent α :=
  match room with
  | 0 => some (.error .outOfRoom)
  | less + 1 => group less

/-- Looks at a token, where the end is none, and breaks down behind the end. -/
def look (tokens : List ArgToken) (i : Nat)
    (next : Option ArgToken → i ≤ tokens.length → Descent β) : Descent β :=
  if h : i ≤ tokens.length then next tokens[i]? h else none

/-- Goes on behind what has been read, and breaks down if that is nothing. -/
def andThen (i : Nat) (d : Descent α) (next : α → (j : Nat) → i < j → Descent β) : Descent β :=
  match d with
  | none => none
  | some (.error stop) => some (.error stop)
  | some (.ok (a, j)) => if h : i < j then next a j h else none

/-- Whether a group of parameters ends in front of a token. -/
def endsGroup : Option ArgToken → Bool
  | none => true
  | some t => t.lexeme = .closing

theorem exists_of_endsGroup_eq_false {t? : Option ArgToken} (h : ¬endsGroup t? = true) :
    ∃ t, t? = some t ∧ t.lexeme ≠ .closing := by
  cases t? with
  | none => exact absurd rfl h
  | some t => exact ⟨t, rfl, by simpa [endsGroup] using h⟩

/-- The name of a call. -/
def name (source : Text) (tokens : List ArgToken) (i : Nat) : Descent Path :=
  look tokens i fun t? _ =>
    match t? with
    | none => refuse source (.expectedName [])
    | some t =>
      match t.lexeme with
      | .word raw =>
        if (Literal.ofKeyword? raw).isSome then refuse source (.expectedName raw)
        else some (((Path.parse raw).map fun path => (path, i + 1)).mapError .fault)
      | lexeme => refuse source (.expectedName lexeme.text)

-- What is left gets less with every token.  A group begins with its parameters and parameters begin
-- with a value, so where no token is taken in between the second number has to get less.
mutual

/-- A value. -/
def value (source : Text) (tokens : List ArgToken) (room i : Nat) : Descent Expr :=
  look tokens i fun t? _ =>
    match t? with
    | none => refuse source (.unexpectedToken [])
    | some t =>
      if t.lexeme = .opening then
        enter room fun less => group source tokens less t.start (i + 1)
      else
        match Expr.ofLexeme? t.lexeme with
        | some r => some ((r.map fun e => (e, i + 1)).mapError .fault)
        | none => refuse source (.unexpectedToken t.lexeme.text)
termination_by (tokens.length + 1 - i, 0)

/-- A call in parentheses, behind the opening one. -/
def group (source : Text) (tokens : List ArgToken) (room start i : Nat) : Descent Expr :=
  andThen i (name source tokens i) fun path j _ =>
    andThen i (arguments source tokens room [] [] j) fun (params, named) k _ =>
      look tokens k fun t? _ =>
        match t? with
        | none => refuse source .unclosedGroup
        | some t =>
          if t.lexeme = .closing then
            some (.ok (.call (ArgReader.slice source start t.stop) path params named, k + 1))
          else refuse source .unclosedGroup
termination_by (tokens.length + 1 - i, 2)
decreasing_by exact Prod.Lex.right' _ (by omega) (by decide)

/-- The parameters of a group behind some of them. -/
def arguments (source : Text) (tokens : List ArgToken) (room : Nat) (params : List Expr)
    (named : List (Text × Expr)) (i : Nat) : Descent (List Expr × List (Text × Expr)) :=
  look tokens i fun t? _ =>
    match t? with
    | none => some (.ok ((params, named), i))
    | some t =>
      match t.lexeme with
      | .closing => some (.ok ((params, named), i))
      | .key key =>
        look tokens (i + 1) fun next? _ =>
          if endsGroup next? then refuse source (.missingValue key)
          else
            andThen i (value source tokens room (i + 1)) fun e j _ =>
              arguments source tokens room params (named ++ [(key, e)]) j
      | lexeme =>
        if named = [] then
          andThen i (value source tokens room i) fun e j _ =>
            arguments source tokens room (params ++ [e]) named j
        else refuse source (.positionalAfterNamed lexeme.text)
termination_by (tokens.length + 1 - i, 1)

end

/-- The name of a partial. -/
def partialName (source : Text) (tokens : List ArgToken) (room i : Nat) : Descent Expr :=
  look tokens i fun t? _ =>
    match t? with
    | none => refuse source .expectedPartialName
    | some t =>
      if t.lexeme = .opening then
        enter room fun less => group source tokens less t.start (i + 1)
      else
        match Expr.partialName? t.lexeme with
        | some e => some (.ok (e, i + 1))
        | none => refuse source .expectedPartialName

/-- The end of the tokens. -/
def finish (source : Text) (tokens : List ArgToken) (result : α) (i : Nat) : Descent α :=
  look tokens i fun t? _ =>
    match t? with
    | none => some (.ok (result, i))
    | some t => refuse source (.unexpectedToken t.lexeme.text)

/-- Cuts a text into tokens and reads them, which may not be none. -/
def ofText (source : Text) (read : List ArgToken → Descent α) :
    Option (Except Stop α) :=
  match lex source with
  | .error ⟨char, offset⟩ =>
    some (.error (.fault (.arguments (.unexpectedCharacter char offset) source)))
  | .ok [] => some (.error (.fault (.arguments .empty source)))
  | .ok tokens => (read tokens).map (Except.map Prod.fst)

end Descent

/-- Reads a call by descent, with room for some number of groups. -/
def Call.descend? (room : Nat) (source : Text) : Option (Except Descent.Stop Call) :=
  Descent.ofText source fun tokens =>
    Descent.andThen 0 (Descent.name source tokens 0) fun path i _ =>
      Descent.andThen 0 (Descent.arguments source tokens room [] [] i) fun (params, named) j _ =>
        Descent.finish source tokens ⟨path, params, named⟩ j

/-- Reads the content of a partial tag by descent, with room for some number of groups. -/
def PartialCall.descend? (room : Nat) (source : Text) :
    Option (Except Descent.Stop PartialCall) :=
  Descent.ofText source fun tokens =>
    Descent.andThen 0 (Descent.partialName source tokens room 0) fun name i _ =>
      Descent.andThen 0 (Descent.arguments source tokens room [] [] i) fun (params, named) j _ =>
        if params.length > 1 then Descent.refuse source .tooManyContexts
        else Descent.finish source tokens ⟨name, params.head?, named⟩ j

/-! ## Reading on from a token -/

namespace ArgReader

variable {source : Text} {limit : Nat} {r r' : ArgReader} {t : ArgToken} {ts : List ArgToken}

/-- Takes the tokens that are left, and the end behind them. -/
def run (source : Text) (r : ArgReader) (ts : List ArgToken) : Except SyntaxFault ArgGroup :=
  (ts.foldlM (step source) r).bind fun r => r.finish.mapError fun fault => .arguments fault source

theorem run_cons_of_eq_ok (h : step source r t = .ok r') :
    r.run source (t :: ts) = r'.run source ts := by
  rw [run, foldlM_cons_of_eq_ok h, run]

theorem run_cons_of_eq_error {fault : SyntaxFault} (h : step source r t = .error fault) :
    r.run source (t :: ts) = .error fault := by
  rw [run, List.foldlM_cons, h]
  rfl

theorem run_nil_of_eq_error {fault : ArgumentFault} (h : r.finish = .error fault) :
    r.run source [] = .error (.arguments fault source) := by
  rw [run, List.foldlM_nil]
  exact congrArg (Except.mapError _) h

/-- Takes the tokens that are left, and the end behind them, unless more groups are open at once
than a limit allows. -/
def runWithin (limit : Nat) (source : Text) (r : ArgReader) (ts : List ArgToken) :
    Except Descent.Stop ArgGroup :=
  if limit < r.depthFrom source ts then .error .outOfRoom
  else (r.run source ts).mapError .fault

/-- The groups that are open already count. -/
theorem length_le_depthFrom (source : Text) (r : ArgReader) (ts : List ArgToken) :
    r.outer.length ≤ r.depthFrom source ts := by
  cases ts with
  | nil => exact Nat.le_refl _
  | cons t ts =>
    rw [depthFrom]
    split
    · exact Nat.le_refl _
    · exact Nat.le_max_left _ _

theorem runWithin_cons_of_eq_ok (hr : r.outer.length ≤ limit) (h : step source r t = .ok r') :
    r.runWithin limit source (t :: ts) = r'.runWithin limit source ts := by
  have hdepth : limit < r.depthFrom source (t :: ts) ↔ limit < r'.depthFrom source ts := by
    simp only [depthFrom, h]
    omega
  simp only [runWithin, hdepth, run_cons_of_eq_ok h]

theorem runWithin_cons_of_eq_error {fault : SyntaxFault} (hr : r.outer.length ≤ limit)
    (h : step source r t = .error fault) :
    r.runWithin limit source (t :: ts) = .error (.fault fault) := by
  have hdepth : ¬ limit < r.depthFrom source (t :: ts) := by
    rw [depthFrom, h]
    exact Nat.not_lt.2 hr
  rw [runWithin, if_neg hdepth, run_cons_of_eq_error h]
  rfl

theorem runWithin_nil (hr : r.outer.length ≤ limit) :
    r.runWithin limit source [] = (r.run source []).mapError .fault :=
  if_neg (Nat.not_lt.2 hr)

theorem runWithin_eq_outOfRoom (hr : limit < r.outer.length) (ts : List ArgToken) :
    r.runWithin limit source ts = .error .outOfRoom :=
  if_pos (hr.trans_le (length_le_depthFrom source r ts))

end ArgReader

theorem ArgGroup.read_of_lex {source : Text} {tokens : List ArgToken} (h : lex source = .ok tokens)
    (head : ArgHead) : read head source = ArgReader.run source ⟨.empty head, []⟩ tokens := by
  simp only [read, h, ArgReader.run]
  cases tokens.foldlM (ArgReader.step source) ⟨.empty head, []⟩ with
  | error fault => rfl
  | ok r =>
    dsimp only [Except.bind]
    cases r.finish <;> rfl

/-- Reads parameters, unless more groups are open at once than a limit allows. -/
def ArgGroup.readWithin (limit : Nat) (head : ArgHead) (source : Text) :
    Except Descent.Stop ArgGroup :=
  if limit < depthRead head source then .error .outOfRoom else (read head source).mapError .fault

theorem ArgGroup.readWithin_of_lex {limit : Nat} {source : Text} {tokens : List ArgToken}
    (h : lex source = .ok tokens) (head : ArgHead) :
    readWithin limit head source = ArgReader.runWithin limit source ⟨.empty head, []⟩ tokens := by
  rw [readWithin, depthRead, read_of_lex h, h]
  rfl

namespace Descent

variable {α β : Type} {limit room : Nat} {source : Text} {tokens : List ArgToken} {i : Nat}
  {r : ArgReader}

theorem look_of_le {next : Option ArgToken → i ≤ tokens.length → Descent β}
    (h : i ≤ tokens.length) : look tokens i next = next tokens[i]? h :=
  dif_pos h

theorem drop_of_getElem? {t : ArgToken} (h : tokens[i]? = some t) :
    tokens.drop i = t :: tokens.drop (i + 1) := by
  obtain ⟨hlt, rfl⟩ := List.getElem?_eq_some_iff.1 h
  exact List.drop_eq_getElem_cons hlt

theorem drop_of_getElem?_none (h : tokens[i]? = none) : tokens.drop i = [] :=
  List.drop_eq_nil_of_le (List.getElem?_eq_none_iff.1 h)

/-- **A part of a descent agrees with a reader** that stands in front of token `i` and may have some
number of groups open: it does not break down, where it stops the reader does so for the same
reason, and where it has read something, up to a token that `stops` allows, the reader goes on from
there with that added. -/
inductive Agrees (limit : Nat) (source : Text) (tokens : List ArgToken) (i : Nat) (r : ArgReader)
    (after : α → ArgReader) (stops : Nat → Prop) : Descent α → Prop
  /-- Both stop. -/
  | error {stop : Stop} (h : r.runWithin limit source (tokens.drop i) = .error stop) :
      Agrees limit source tokens i r after stops (some (.error stop))
  /-- Both go on. -/
  | ok {a : α} {j : Nat} (hle : j ≤ tokens.length) (hstops : stops j)
      (h : r.runWithin limit source (tokens.drop i) =
        (after a).runWithin limit source (tokens.drop j)) :
      Agrees limit source tokens i r after stops (some (.ok (a, j)))

namespace Agrees

variable {after : α → ArgReader} {stops : Nat → Prop} {d : Descent α}

theorem imp {stops' : Nat → Prop} (h : Agrees limit source tokens i r after stops d)
    (hstops : ∀ j, stops j → stops' j) : Agrees limit source tokens i r after stops' d := by
  cases h with
  | error h => exact .error h
  | ok hle hj h => exact .ok hle (hstops _ hj) h

/-- What agrees with a reader agrees with one that comes to the same. -/
theorem of_run_eq {j : Nat} {r' : ArgReader} (h : Agrees limit source tokens j r' after stops d)
    (hrun : r.runWithin limit source (tokens.drop i) =
      r'.runWithin limit source (tokens.drop j)) :
    Agrees limit source tokens i r after stops d := by
  cases h with
  | error h => exact .error (hrun.trans h)
  | ok hle hstops h => exact .ok hle hstops (hrun.trans h)

/-- Parts that agree are put together. -/
theorem andThen {low : Nat} {after' : β → ArgReader} {stops' : Nat → Prop}
    {next : α → (j : Nat) → low < j → Descent β} (h : Agrees limit source tokens i r after stops d)
    (hstops : ∀ j, stops j → low < j)
    (hnext : ∀ a j (hlt : low < j), j ≤ tokens.length → stops j →
      Agrees limit source tokens j (after a) after' stops' (next a j hlt)) :
    Agrees limit source tokens i r after' stops' (Descent.andThen low d next) := by
  cases h with
  | error h => exact .error h
  | @ok a j hle hj h =>
    rw [Descent.andThen, dif_pos (hstops j hj)]
    exact (hnext a j (hstops j hj) hle hj).of_run_eq h

/-- A token that the reader refuses is refused. -/
theorem refuse {t : ArgToken} {fault : ArgumentFault} (hr : r.outer.length ≤ limit)
    (ht : tokens[i]? = some t)
    (h : ArgReader.step source r t = .error (.arguments fault source)) :
    Agrees limit source tokens i r after stops (Descent.refuse source fault) := by
  refine .error ?_
  rw [drop_of_getElem? ht, ArgReader.runWithin_cons_of_eq_error hr h]

/-- An end that the reader refuses is refused. -/
theorem refuse_end {fault : ArgumentFault} (hr : r.outer.length ≤ limit)
    (ht : tokens[i]? = none) (h : r.finish = .error fault) :
    Agrees limit source tokens i r after stops (Descent.refuse source fault) := by
  refine .error ?_
  rw [drop_of_getElem?_none ht, ArgReader.runWithin_nil hr, ArgReader.run_nil_of_eq_error h]
  rfl

/-- A token that the reader takes is read. -/
theorem step {t : ArgToken} {r' : ArgReader} (hr : r.outer.length ≤ limit)
    (ht : tokens[i]? = some t) (h : ArgReader.step source r t = .ok r')
    (hd : Agrees limit source tokens (i + 1) r' after stops d) :
    Agrees limit source tokens i r after stops d := by
  refine hd.of_run_eq ?_
  rw [drop_of_getElem? ht, ArgReader.runWithin_cons_of_eq_ok hr h]

/-- A group is gone into if there is room for it, and else the reader has no room for it either. -/
theorem enter {t : ArgToken} {r' : ArgReader} {group : Nat → Descent α}
    (hroom : r.outer.length + room = limit) (ht : tokens[i]? = some t)
    (h : ArgReader.step source r t = .ok r') (hr' : r'.outer.length = r.outer.length + 1)
    (hgroup : ∀ less, r'.outer.length + less = limit →
      Agrees limit source tokens (i + 1) r' after stops (group less)) :
    Agrees limit source tokens i r after stops (Descent.enter room group) := by
  refine .step (by omega) ht h ?_
  cases room with
  | zero => exact .error (ArgReader.runWithin_eq_outOfRoom (by omega) _)
  | succ less => exact hgroup less (by omega)

/-- A token that the reader takes for a value is read as that. -/
theorem map {t : ArgToken} {result : Except SyntaxFault α} (hr : r.outer.length ≤ limit)
    (ht : tokens[i]? = some t) (h : ArgReader.step source r t = result.map after)
    (hstops : stops (i + 1)) :
    Agrees limit source tokens i r after stops
      (some ((result.map fun a => (a, i + 1)).mapError .fault)) := by
  have hle : i + 1 ≤ tokens.length := (List.getElem?_eq_some_iff.1 ht).1
  cases result with
  | error fault =>
    refine .error ?_
    rw [drop_of_getElem? ht, ArgReader.runWithin_cons_of_eq_error hr h]
  | ok a =>
    refine .ok hle hstops ?_
    rw [drop_of_getElem? ht, ArgReader.runWithin_cons_of_eq_ok hr h]

/-- A token that the reader takes is the last one of what is read. -/
theorem take {t : ArgToken} {a : α} (hr : r.outer.length ≤ limit) (ht : tokens[i]? = some t)
    (h : ArgReader.step source r t = .ok (after a)) (hstops : stops (i + 1)) :
    Agrees limit source tokens i r after stops (some (.ok (a, i + 1))) :=
  map hr ht (h.trans (Except.map_eq_ok.2 ⟨a, rfl, rfl⟩).symm) hstops

end Agrees

/-! ## Every part agrees -/

/-- The name of a call in parentheses, or of a call that has a first token. -/
theorem agrees_name {outer : List (ArgGroup × Nat)} (houter : outer.length ≤ limit)
    (hle : i ≤ tokens.length) (hend : tokens[i]? = none → outer ≠ []) :
    Agrees limit source tokens i ⟨.empty .callAwaited, outer⟩
      (fun path => ⟨.empty (.call path), outer⟩) (i < ·) (name source tokens i) := by
  rw [name, look_of_le hle]
  cases ht : tokens[i]? with
  | none =>
    obtain ⟨waiting, outer, rfl⟩ := List.exists_cons_of_ne_nil (hend ht)
    exact .refuse_end houter ht rfl
  | some t =>
    obtain ⟨lexeme, start, stop⟩ := t
    cases lexeme with
    | word raw =>
      by_cases hkeyword : (Literal.ofKeyword? raw).isSome
      · simp only [hkeyword, if_true]
        exact .refuse houter ht (by simp [ArgReader.step, ArgGroup.empty, hkeyword])
      · simp only [hkeyword, Bool.false_eq_true, if_false]
        refine .map houter ht ?_ (Nat.lt_succ_self i)
        simp [ArgReader.step, ArgGroup.empty, hkeyword]
    | opening | closing | quoted raw | number raw | key key => exact .refuse houter ht rfl

/-- Where the value of a key is awaited, the reader refuses another key. -/
theorem step_key_of_pending {key : Text} {start stop : Nat} (hhead : r.inner.head.IsKnown)
    (hpending : r.inner.pending.isSome) :
    ArgReader.step source r ⟨.key key, start, stop⟩ =
      .error (.arguments (.unexpectedToken key) source) := by
  obtain ⟨path, hr⟩ | ⟨name, hr⟩ := hhead.eq_call_or_eq_partialTag <;>
    simp [ArgReader.step, hr, hpending]

/-- In a group whose name is known, the reader refuses the end of a group that is not complete. -/
theorem agrees_incomplete {after : α → ArgReader} {stops : Nat → Prop} {fault : ArgumentFault}
    (hr : r.outer.length ≤ limit) (hhead : r.inner.head.IsKnown)
    (h : r.inner.incomplete? = some fault)
    (hends : endsGroup tokens[i]? = true) :
    Agrees limit source tokens i r after stops (refuse source fault) := by
  cases ht : tokens[i]? with
  | none =>
    refine .refuse_end hr ht ?_
    obtain ⟨path, hr⟩ | ⟨name, hr⟩ := hhead.eq_call_or_eq_partialTag <;>
      cases houter : r.outer <;> simp [ArgReader.finish, houter, hr, h]
  | some t =>
    obtain ⟨lexeme, start, stop⟩ := t
    obtain rfl : lexeme = .closing := by simpa [ht, endsGroup] using hends
    refine .refuse hr ht ?_
    obtain ⟨path, hr⟩ | ⟨name, hr⟩ := hhead.eq_call_or_eq_partialTag <;>
      simp [ArgReader.step, ArgReader.close, hr, h]

/-- Behind a named parameter, the reader refuses a positional one. -/
theorem step_of_named {head : ArgHead} {params : List Expr} {named : List (Text × Expr)}
    {outer : List (ArgGroup × Nat)} {t : ArgToken} (hhead : head.IsKnown) (hnamed : named ≠ [])
    (hclosing : t.lexeme ≠ .closing) (hkey : ∀ key, t.lexeme ≠ .key key) :
    ArgReader.step source ⟨⟨head, params, named, none⟩, outer⟩ t =
      .error (.arguments (.positionalAfterNamed t.lexeme.text) source) := by
  obtain ⟨lexeme, start, stop⟩ := t
  obtain ⟨path, rfl⟩ | ⟨name, rfl⟩ := hhead.eq_call_or_eq_partialTag
  all_goals
    cases lexeme with
    | closing => exact absurd rfl hclosing
    | key key => exact absurd rfl (hkey key)
    | opening | quoted raw | number raw | word raw =>
      simp [ArgReader.step, ArgGroup.refusal?, hnamed]

mutual

/-- A value, where the reader takes one and the group does not end. -/
theorem agrees_value {room i : Nat} {r : ArgReader} {t : ArgToken}
    (hroom : r.outer.length + room = limit) (ht : tokens[i]? = some t)
    (hclosing : t.lexeme ≠ .closing) (hkey : ∀ key, t.lexeme = .key key → r.inner.pending.isSome)
    (h : r.inner.TakesValue) :
    Agrees limit source tokens i r r.add (i < ·) (value source tokens room i) := by
  have hlt : i < tokens.length := (List.getElem?_eq_some_iff.1 ht).1
  have hr : r.outer.length ≤ limit := Nat.le.intro hroom
  rw [value, look_of_le hlt.le]
  simp only [ht]
  obtain ⟨lexeme, start, stop⟩ := t
  cases lexeme with
  | opening =>
    exact .enter hroom ht (ArgReader.step_opening h) rfl fun less hless =>
      (agrees_group hless hlt).imp fun j hj => Nat.lt_of_succ_lt hj
  | closing => exact absurd rfl hclosing
  | key key => exact .refuse hr ht (step_key_of_pending h.head (hkey key rfl))
  | quoted raw | number raw =>
    exact .map hr ht (ArgReader.step_ofLexeme? h rfl) (Nat.lt_succ_self i)
  | word raw =>
    simp only [reduceCtorEq, if_false]
    cases hvalue : Expr.ofLexeme? (.word raw) with
    | some result => exact .map hr ht (ArgReader.step_ofLexeme? h hvalue) (Nat.lt_succ_self i)
    | none =>
      rw [Expr.ofLexeme?] at hvalue
      split at hvalue <;> exact absurd hvalue (by simp)
termination_by (tokens.length + 1 - i, 0)

/-- A call in parentheses, behind the opening one. -/
theorem agrees_group {room i start : Nat} {g : ArgGroup} {outer : List (ArgGroup × Nat)}
    (hroom : outer.length + 1 + room = limit) (hle : i ≤ tokens.length) :
    Agrees limit source tokens i ⟨.empty .callAwaited, (g, start) :: outer⟩
      (fun e => ⟨g.add e, outer⟩) (i < ·) (group source tokens room start i) := by
  have hopened : outer.length + 1 ≤ limit := Nat.le.intro hroom
  rw [group]
  refine (agrees_name hopened hle fun _ => List.cons_ne_nil _ _).andThen (fun j hj => hj) ?_
  intro path j hlt hle hj
  have hknown : (ArgHead.call path).IsKnown := trivial
  refine (agrees_arguments hroom hle hknown).andThen (fun k hk => hlt.trans_le hk.1) ?_
  rintro ⟨params, named⟩ k hik hk ⟨-, hends⟩
  simp only [look_of_le hk]
  cases ht : tokens[k]? with
  | none => exact .refuse_end hopened ht rfl
  | some t =>
    obtain ⟨lexeme, opened, closed⟩ := t
    obtain rfl : lexeme = .closing := by simpa [ht, endsGroup] using hends
    exact .take hopened ht (ArgReader.step_closing _ _ _ _ _ _) (Nat.lt_succ_of_lt hik)
termination_by (tokens.length + 1 - i, 2)
decreasing_by exact Prod.Lex.right' _ (by omega) (by decide)

/-- The parameters of a group. -/
theorem agrees_arguments {room i : Nat} {head : ArgHead} {params : List Expr}
    {named : List (Text × Expr)} {outer : List (ArgGroup × Nat)}
    (hroom : outer.length + room = limit) (hle : i ≤ tokens.length) (hhead : head.IsKnown) :
    Agrees limit source tokens i ⟨⟨head, params, named, none⟩, outer⟩
      (fun result => ⟨⟨head, result.1, result.2, none⟩, outer⟩)
      (fun j => i ≤ j ∧ endsGroup tokens[j]? = true)
      (arguments source tokens room params named i) := by
  have houter : outer.length ≤ limit := Nat.le.intro hroom
  rw [arguments, look_of_le hle]
  cases ht : tokens[i]? with
  | none => exact .ok hle ⟨Nat.le_refl i, by rw [ht]; rfl⟩ rfl
  | some t =>
    have hlt : i < tokens.length := (List.getElem?_eq_some_iff.1 ht).1
    obtain ⟨lexeme, start, stop⟩ := t
    cases lexeme with
    | closing => exact .ok hle ⟨Nat.le_refl i, by rw [ht]; rfl⟩ rfl
    | key key =>
      refine .step houter ht (ArgReader.step_key hhead _ _ _ _) ?_
      simp only [look_of_le (Nat.succ_le_of_lt hlt)]
      -- the reader notices the missing value where the group ends, one token behind the key
      by_cases hends : endsGroup tokens[i + 1]? = true
      · simp only [if_pos hends]
        exact agrees_incomplete houter hhead rfl hends
      · simp only [if_neg hends]
        obtain ⟨next, hnext, hclosing⟩ := exists_of_endsGroup_eq_false hends
        refine (agrees_value hroom hnext hclosing (fun _ _ => rfl)
          ⟨hhead, fun hnone => absurd hnone (by simp)⟩).andThen
            (fun j hj => Nat.lt_of_succ_lt hj) ?_
        intro e j hij hj _
        rw [ArgReader.add, ArgGroup.add_named hhead]
        exact (agrees_arguments hroom hj hhead).imp fun k hk => ⟨hij.le.trans hk.1, hk.2⟩
    | opening | quoted raw | number raw | word raw =>
      by_cases hnamed : named = []
      · subst hnamed
        simp only [if_true]
        refine (agrees_value hroom ht (by simp) (by simp) ⟨hhead, fun _ => rfl⟩).andThen
          (fun j hj => hj) ?_
        intro e j hij hj _
        rw [ArgReader.add, ArgGroup.add_positional hhead]
        exact (agrees_arguments hroom hj hhead).imp fun k hk => ⟨hij.le.trans hk.1, hk.2⟩
      · simp only [if_neg hnamed]
        exact .refuse houter ht (step_of_named hhead hnamed (by simp) (by simp))
termination_by (tokens.length + 1 - i, 1)

end

/-- The name of a partial, at the first token. -/
theorem agrees_partialName {t : ArgToken} (ht : tokens[i]? = some t) :
    Agrees room source tokens i ⟨.empty .partialAwaited, []⟩ (fun e => ⟨.empty (.partialTag e), []⟩)
      (i < ·) (partialName source tokens room i) := by
  have hlt : i < tokens.length := (List.getElem?_eq_some_iff.1 ht).1
  rw [partialName, look_of_le hlt.le]
  simp only [ht]
  obtain ⟨lexeme, start, stop⟩ := t
  cases lexeme with
  | opening =>
    exact .enter (Nat.zero_add room) ht rfl rfl fun less hless =>
      (agrees_group hless hlt).imp fun j hj => Nat.lt_of_succ_lt hj
  | closing | key key => exact .refuse (Nat.zero_le _) ht rfl
  | quoted raw | number raw | word raw =>
    exact .take (Nat.zero_le _) ht (ArgReader.step_partialName rfl) (Nat.lt_succ_self i)

/-- The end of the tokens, behind the parameters of an outermost group. -/
theorem agrees_finish {g : ArgGroup} {after : α → ArgReader} {result : α} (hhead : g.head.IsKnown)
    (hcomplete : g.incomplete? = none) (hafter : after result = ⟨g, []⟩) (hle : i ≤ tokens.length)
    (hends : endsGroup tokens[i]? = true) :
    Agrees limit source tokens i ⟨g, []⟩ after (tokens[·]? = none)
      (finish source tokens result i) := by
  rw [finish, look_of_le hle]
  cases ht : tokens[i]? with
  | none => exact .ok hle ht (by rw [hafter])
  | some t =>
    obtain ⟨lexeme, start, stop⟩ := t
    obtain rfl : lexeme = .closing := by simpa [ht, endsGroup] using hends
    refine .refuse (Nat.zero_le _) ht ?_
    obtain ⟨path, hr⟩ | ⟨name, hr⟩ := hhead.eq_call_or_eq_partialTag <;>
      simp [ArgReader.step, ArgReader.close, hr, hcomplete, Lexeme.text]

/-- What agrees with a reader up to the end comes to what the reader comes to. -/
theorem Agrees.map_eq {after : α → ArgReader} {d : Descent α} {group : α → ArgGroup}
    (h : Agrees limit source tokens i r after (tokens[·]? = none) d)
    (hfinish : ∀ a, (after a).finish = .ok (group a)) (houter : ∀ a, (after a).outer = []) :
    (d.map (Except.map Prod.fst)).map (Except.map group) =
      some (r.runWithin limit source (tokens.drop i)) := by
  cases h with
  | error h => rw [h]; rfl
  | @ok a j hle hend h =>
    have hlength : (after a).outer.length ≤ limit := by simp [houter a]
    rw [h, drop_of_getElem?_none hend, ArgReader.runWithin_nil hlength, ArgReader.run,
      List.foldlM_nil]
    exact congrArg (fun result => some (Except.mapError Stop.fault result))
      (congrArg (Except.mapError _) (hfinish a)).symm

/-- **A descent comes to what the reader comes to**, if it agrees with it on all tokens. -/
theorem ofText_map_eq {read : List ArgToken → Descent α} {head : ArgHead} {after : α → ArgReader}
    {group : α → ArgGroup} (hempty : ArgReader.finish ⟨.empty head, []⟩ = .error .empty)
    (hfinish : ∀ a, (after a).finish = .ok (group a)) (houter : ∀ a, (after a).outer = [])
    (h : ∀ tokens : List ArgToken, tokens ≠ [] →
      Agrees limit source tokens 0 ⟨.empty head, []⟩ after (tokens[·]? = none) (read tokens)) :
    (ofText source read).map (Except.map group) = some (ArgGroup.readWithin limit head source) := by
  cases hlex : lex source with
  | error fault =>
    rw [ArgGroup.readWithin, ArgGroup.depthRead]
    simp only [ofText, ArgGroup.read, hlex]
    rfl
  | ok tokens =>
    rw [ArgGroup.readWithin_of_lex hlex]
    cases tokens with
    | nil =>
      simp only [ofText, hlex]
      rw [ArgReader.runWithin_nil (Nat.zero_le _), ArgReader.run_nil_of_eq_error hempty]
      rfl
    | cons t ts =>
      simp only [ofText, hlex]
      exact (h (t :: ts) (List.cons_ne_nil t ts)).map_eq hfinish houter

end Descent

/-- The group that the parameters of a call make. -/
def Call.group (c : Call) : ArgGroup := ⟨.call c.head, c.params, c.named, none⟩

/-- The group that the parameters of a partial tag make. -/
def PartialCall.group (c : PartialCall) : ArgGroup :=
  ⟨.partialTag c.name, c.context.toList, c.named, none⟩

open Descent in
theorem Call.map_descend? (room : Nat) (source : Text) :
    (descend? room source).map (Except.map group) =
      some (ArgGroup.readWithin room .callAwaited source) := by
  refine @ofText_map_eq _ _ _ _ _ (fun c => ⟨c.group, []⟩) _ rfl (fun c => rfl) (fun c => rfl) ?_
  intro tokens hne
  have hfirst : tokens[0]? ≠ none := by simpa using hne
  refine (agrees_name (Nat.zero_le _) (Nat.zero_le _) fun hnone => absurd hnone hfirst).andThen
    (fun j hj => hj) ?_
  intro path i hi hle _
  have hknown : (ArgHead.call path).IsKnown := trivial
  refine (agrees_arguments (Nat.zero_add room) hle hknown).andThen
    (fun j hj => hi.trans_le hj.1) ?_
  rintro ⟨params, named⟩ j hj hle ⟨-, hends⟩
  exact agrees_finish hknown rfl rfl hle hends

open Descent in
theorem PartialCall.map_descend? (room : Nat) (source : Text) :
    (descend? room source).map (Except.map group) =
      some (ArgGroup.readWithin room .partialAwaited source) := by
  have hfinish : ∀ c : PartialCall, ArgReader.finish ⟨c.group, []⟩ = .ok c.group := by
    rintro ⟨name, _ | context, named⟩ <;> rfl
  refine @ofText_map_eq _ _ _ _ _ (fun c => ⟨c.group, []⟩) _ rfl hfinish (fun c => rfl) ?_
  intro tokens hne
  obtain ⟨t, ts, rfl⟩ := List.exists_cons_of_ne_nil hne
  have hfirst : (t :: ts)[0]? = some t := rfl
  refine (agrees_partialName hfirst).andThen (fun j hj => hj) ?_
  intro name i hi hle _
  have hknown : (ArgHead.partialTag name).IsKnown := trivial
  refine (agrees_arguments (Nat.zero_add room) hle hknown).andThen
    (fun j hj => hi.trans_le hj.1) ?_
  rintro ⟨params, named⟩ j hj hle ⟨-, hends⟩
  by_cases hmany : params.length > 1
  · simp only [if_pos hmany]
    exact agrees_incomplete (Nat.zero_le _) hknown (if_pos hmany) hends
  · simp only [if_neg hmany]
    have hparams := toList_head?_of_length_le_one (Nat.le_of_not_lt hmany)
    refine agrees_finish hknown (if_neg hmany) ?_ hle hends
    rw [PartialCall.group, hparams]

/-- The error for what has stopped a descent, if it is the fault of the text. -/
def Descent.Stop.error? (position : Position) : Descent.Stop → Option TemplateError
  | .fault f => some (.malformed f position)
  | .outOfRoom => none

/-- What a descent comes to, by what the reader comes to. -/
theorem Descent.map_error?_eq {α : Type} {d : Option (Except Stop α)} {group : α → ArgGroup}
    {room : Nat} {head : ArgHead} {source : Text} {position : Position}
    {parsed : Except TemplateError α}
    (h : d.map (Except.map group) = some (ArgGroup.readWithin room head source))
    (herror : ∀ fault, ArgGroup.read head source = .error fault →
      parsed = .error (.malformed fault position))
    (hok : ∀ a, ArgGroup.read head source = .ok (group a) → parsed = .ok a) :
    d.map (Except.mapError (Stop.error? position)) =
      some (if room < ArgGroup.depthRead head source then .error none
        else parsed.mapError some) := by
  obtain ⟨result, rfl, hresult⟩ := Option.map_eq_some_iff.1 h
  rw [ArgGroup.readWithin] at hresult
  split
  case isTrue hdepth =>
    rw [if_pos hdepth] at hresult
    rw [Except.map_eq_error.1 hresult]
    rfl
  case isFalse hdepth =>
    rw [if_neg hdepth] at hresult
    cases result with
    | error stop =>
      obtain ⟨fault, hread, rfl⟩ := Except.mapError_eq_error.1 hresult.symm
      rw [herror fault hread]
      rfl
    | ok a =>
      rw [hok a (Except.mapError_eq_ok.1 hresult.symm)]
      rfl

/-- **Reading a call by descent never breaks down.**  It runs out of room if more groups are open at
once than there is room for, and else it comes to what the reader comes to. -/
theorem Call.descend?_eq (room : Nat) (source : Text) (position : Position) :
    (descend? room source).map (Except.mapError (Descent.Stop.error? position)) =
      some (if room < ArgGroup.depthRead .callAwaited source then .error none
        else (parse position source).mapError some) := by
  refine Descent.map_error?_eq (map_descend? room source) (fun fault h => ?_) fun c h => ?_
  · rw [parse, h]
  · rw [parse, h]
    rfl

/-- **Reading a partial tag by descent never breaks down.**  It runs out of room if more groups are
open at once than there is room for, and else it comes to what the reader comes to. -/
theorem PartialCall.descend?_eq (room : Nat) (source : Text) (position : Position) :
    (descend? room source).map (Except.mapError (Descent.Stop.error? position)) =
      some (if room < ArgGroup.depthRead .partialAwaited source then .error none
        else (parse position source).mapError some) := by
  refine Descent.map_error?_eq (map_descend? room source) (fun fault h => ?_) fun c h => ?_
  · rw [parse, h]
  · rw [parse, h]
    obtain ⟨name, _ | context, named⟩ := c <;> rfl

end Stencil
