import Stencil.Proofs.Expr.Printing
import Stencil.Proofs.Node.Whitespace
import Stencil.Proofs.Token.Printing

/-!
# Printing a tree and reading it back

A tree is printed with the default delimiters: texts stand for themselves, and every other node is
printed as its tags (`Node.print`).  If every part of a tree can be written down as it is
(`Node.IsPrintable`) and no text in it is empty or follows another (`Node.Tidy`), then what is
printed of it is read back as that tree, except that the nodes are where they have been printed
(`Node.parse_printAll`).

Three phases of reading meet here, and each has to leave the seams between nodes alone.

* The scanner cuts what is printed where nodes meet (`ScansAs`).
* White space is left as it is: texts have none at their edges, so no text loses anything, and a tag
  that stands alone on its line is the only node and has no indentation
  (`Symbol.ofPieces_arrangeFrom`).
* The symbols are the yield of a derivation whose nodes are those of the tree (`Node.exists_item`),
  and what is built of symbols is the tree of their only derivation (`OpenForest.yield_eq_iff`).
-/

set_option autoImplicit false

namespace Stencil

/-! ## Printing -/

mutual

/-- A node as it is printed. -/
def Node.print : Node → Text
  | .text t => t
  | .comment t => Tag.printComment t
  | .output escaped call _ =>
    Tag.print (if escaped then ' ' :: call.print else '&' :: ' ' :: call.print)
  | .block inverted call body inverse _ =>
    Tag.print ((if inverted then '^' else '#') :: ' ' :: call.print) ++
      (Node.printAll body ++
        (Node.printBranch inverse ++ Tag.print ('/' :: ' ' :: call.head.source)))
  | .partialTag call _ _ => Tag.print ('>' :: ' ' :: call.print)

/-- Nodes as they are printed, one after another. -/
def Node.printAll : List Node → Text
  | [] => []
  | node :: rest => node.print ++ Node.printAll rest

/-- A branch as it is printed, behind an else tag. -/
def Node.printBranch : Option (List Node) → Text
  | none => []
  | some nodes => Tag.printElse ++ Node.printAll nodes

end

/-! ## What can be printed -/

/-- A text that can be printed as it is: it neither begins nor ends with a blank, and it neither
holds an opening delimiter nor ends in what would change one behind it. -/
structure Text.IsPrintable (t : Text) : Prop where
  /-- There is no blank at either end. -/
  isTrim : t.IsTrim
  /-- There is no opening delimiter. -/
  opening : ¬Delimiters.braces.opening <:+: t
  /-- The text does not end in half an opening delimiter. -/
  brace : t.getLast? ≠ some '\x7b'
  /-- The text does not end in a backslash, which would escape a tag behind it. -/
  backslash : t.getLast? ≠ some '\\'

theorem Text.isPrintable_singleton {c : Char} (hblank : isBlank c = false)
    (hc : c ≠ '\x7b' ∧ c ≠ '\\') : Text.IsPrintable [c] := by
  refine ⟨⟨⟨c, [], rfl, hblank⟩, ⟨[], c, rfl, hblank⟩⟩, fun hin => ?_, ?_, ?_⟩
  · exact absurd hin.length_le (by simp [Delimiters.braces])
  · exact fun h => hc.1 (Option.some.inj h)
  · exact fun h => hc.2 (Option.some.inj h)

/-- A call that can be printed: it is canonical and has no closing delimiter in it. -/
structure Call.IsPrintable (c : Call) : Prop where
  /-- The call is canonical. -/
  isCanonical : c.IsCanonical
  /-- There is no closing delimiter. -/
  closing : ¬Delimiters.braces.closing <:+: c.print

/-- Whether a name can stand at the beginning of an output tag without a sigil: it is not the word
for an else tag, and it does not begin with a sigil. -/
def Path.BeginsOutput (p : Path) : Prop :=
  p.source ≠ ['e', 'l', 's', 'e'] ∧
    ∀ c t, p.source = c :: t → c ∉ ['#', '^', '/', '>', '&']

mutual

/-- A node is printable if each part of it can be written down as it is. -/
def Node.IsPrintable : Node → Prop
  | .text t => t.IsPrintable
  | .comment t =>
    Text.strip t = t ∧ ¬['-', '-', '\x7d', '\x7d'] <:+: t ∧
      ¬['-', '-', '~', '\x7d', '\x7d'] <:+: t
  | .output escaped call _ => call.IsPrintable ∧ (escaped = true → call.head.BeginsOutput)
  | .block _ call body inverse _ =>
    call.IsPrintable ∧ Node.AllPrintable body ∧ Node.BranchPrintable inverse
  | .partialTag call indent _ =>
    call.IsCanonical ∧ ¬Delimiters.braces.closing <:+: call.print ∧ indent = []

/-- Nodes are printable if each of them is. -/
def Node.AllPrintable : List Node → Prop
  | [] => True
  | node :: rest => node.IsPrintable ∧ Node.AllPrintable rest

/-- A branch is printable if its nodes are. -/
def Node.BranchPrintable : Option (List Node) → Prop
  | none => True
  | some nodes => Node.AllPrintable nodes

end

/-! ## Trees without places -/

mutual

/-- A node without the places of its tags. -/
def Node.unplaced : Node → Node
  | .text t => .text t
  | .comment t => .comment t
  | .output escaped call _ => .output escaped call .none
  | .block inverted call body inverse _ =>
    .block inverted call (Node.unplacedAll body) (Node.unplacedBranch inverse) .none
  | .partialTag call indent _ => .partialTag call indent .none

/-- Nodes without the places of their tags. -/
def Node.unplacedAll : List Node → List Node
  | [] => []
  | node :: rest => node.unplaced :: Node.unplacedAll rest

/-- A branch without the places of its tags. -/
def Node.unplacedBranch : Option (List Node) → Option (List Node)
  | none => none
  | some nodes => some (Node.unplacedAll nodes)

end

/-! ## White space that stays -/

/-- A token of which nothing is taken away: a tag, or a text without blanks at its edges. -/
def Token.IsTrim : Token → Prop
  | .text raw _ => raw.IsTrim
  | .tag _ => True

/-- The piece that a token becomes if nothing is taken away from it. -/
def Token.toPiece : Token → Piece
  | .text raw _ => .text raw
  | .tag t => .tag t none

namespace Token

theorem trimmed_of_isTrim {raw : Text} (h : raw.IsTrim) (before after : List Token)
    (start : Cursor) : trimmed before raw start after = raw := by
  have hsettle : trimmed before raw start after = Text.settle _ _ _ _ raw := rfl
  rw [hsettle, Text.settle]
  simp only [h.dropLineEnd_eq, ite_self, h.dropEndWhile_eq fun _ => Text.isBlank_of_isIndentChar,
    h.dropWhile_eq fun _ => id, h.dropEndWhile_eq fun _ => id]

/-- Behind texts without blanks at their edges, a tag that stands alone has no indentation. -/
theorem getD_lineIndent? {before : List Token} (h : ∀ token ∈ before, token.IsTrim) :
    (lineIndent? before).getD [] = [] := by
  rcases before with _ | ⟨_ | tag, earlier⟩
  · rfl
  · next raw start =>
    have hraw : raw.IsTrim := h _ List.mem_cons_self
    obtain ⟨front, c, rfl, hc⟩ := hraw.exists_concat
    rw [lineIndent?_text, Text.indentAtEnd?_append_singleton hc, ite_self, Option.getD_none]
  · rfl

theorem symbol?_ofToken {before after : List Token} (h : ∀ token ∈ before, token.IsTrim)
    {token : Token} (htoken : token.IsTrim) :
    (Piece.ofToken before after token).symbol? = token.toPiece.symbol? := by
  cases token with
  | text raw start => rw [Piece.ofToken, trimmed_of_isTrim htoken, toPiece]
  | tag t =>
    have hindent : (standaloneIndent? before t after).getD [] = [] := by
      rw [standaloneIndent?]
      split
      · exact getD_lineIndent? h
      · rfl
    simp only [Piece.ofToken, toPiece, Piece.symbol?, hindent, Option.getD_none]

end Token

/-- Texts without blanks at their edges stay as they are, and so do the symbols of a template. -/
theorem Symbol.ofPieces_arrangeFrom {before tokens : List Token}
    (hbefore : ∀ token ∈ before, token.IsTrim) (h : ∀ token ∈ tokens, token.IsTrim) :
    Symbol.ofPieces (Piece.arrangeFrom before tokens) =
      Symbol.ofPieces (tokens.map Token.toPiece) := by
  induction tokens generalizing before with
  | nil => rfl
  | cons token after ih =>
    have htoken := h token List.mem_cons_self
    rw [Piece.arrangeFrom_cons, List.map_cons, Symbol.ofPieces, Symbol.ofPieces,
      Token.symbol?_ofToken hbefore htoken, ih ?_ fun t ht => h t (List.mem_cons_of_mem _ ht)]
    intro t ht
    rcases List.mem_cons.1 ht with rfl | ht
    · exact htoken
    · exact hbefore t ht

/-! ## Output tags without a sigil -/

/-- What is printed of a call begins with its name. -/
theorem Path.BeginsOutput.not_mem_sigils {call : Call} (h : call.head.BeginsOutput)
    (hcall : call.IsCanonical) (c : Char) (t : Text) (ht : call.print = c :: t) :
    c ∉ ['#', '^', '/', '>', '&'] := by
  obtain ⟨d, u, hd, -⟩ := (Lexeme.isTrim_of_read? hcall.head.read?).exists_cons
  rw [Call.print, hd, List.cons_append] at ht
  obtain ⟨rfl, -⟩ := List.cons.inj ht
  exact h.2 d u hd

/-- If what is printed of a call began with the word for an else tag, that would be its name. -/
theorem Path.BeginsOutput.not_else {call : Call} (h : call.head.BeginsOutput)
    (hcall : call.IsCanonical) (rest : Text)
    (hrest : call.print = 'e' :: 'l' :: 's' :: 'e' :: rest) :
    ∃ c t, rest = c :: t ∧ isBlank c = false := by
  by_contra hblank
  have hends : Lexeme.endsNumber rest = true := by
    cases rest with
    | nil => rfl
    | cons c t =>
      refine Lexeme.endsNumber_cons.2 (.inl ?_)
      by_contra hc
      exact hblank ⟨c, t, rfl, by simpa using hc⟩
  have hword : Lexeme.read? ['e', 'l', 's', 'e'] = some (.word ['e', 'l', 's', 'e'], []) := by
    decide +kernel
  have hread := Lexeme.read?_append hends hword
  have hname := hcall.read?_print
  rw [hrest] at hname
  obtain ⟨hlexeme, -⟩ := Prod.mk.inj (Option.some.inj (hread.symm.trans hname))
  exact h.1 (Lexeme.word.inj hlexeme).symm

/-! ## Scanning what is printed -/

/-- In front of `rest`, a text is scanned into tokens of which nothing is taken away, and the
symbols of these tokens are `w`. -/
def ScansAs (start : Cursor) (t rest : Text) (w : List Symbol) : Prop :=
  ∃ tokens, scanFrom .braces start (t ++ rest) =
      (scanFrom .braces (start.advance t) rest).prepend tokens ∧
    (∀ token ∈ tokens, token.IsTrim) ∧ Symbol.ofPieces (tokens.map Token.toPiece) = .ok w

theorem Symbol.ofPieces_append {first second : List Piece} {v w : List Symbol}
    (hfirst : Symbol.ofPieces first = .ok v) (hsecond : Symbol.ofPieces second = .ok w) :
    Symbol.ofPieces (first ++ second) = .ok (v ++ w) := by
  induction first generalizing v with
  | nil =>
    obtain rfl := Except.ok.inj hfirst
    exact hsecond
  | cons piece first ih =>
    obtain ⟨symbol?, hpiece, hrest⟩ := Except.bind_eq_ok.1 hfirst
    obtain ⟨v, hv, rfl⟩ := Except.map_eq_ok.1 hrest
    rw [List.append_assoc]
    exact Except.bind_eq_ok.2 ⟨symbol?, hpiece, Except.map_eq_ok.2 ⟨v ++ w, ih hv, rfl⟩⟩

namespace ScansAs

variable {start : Cursor} {rest : Text}

theorem nil : ScansAs start [] rest [] :=
  ⟨[], rfl, fun _ h => absurd h List.not_mem_nil, rfl⟩

theorem append {s t : Text} {v w : List Symbol} (hs : ScansAs start s (t ++ rest) v)
    (ht : ScansAs (start.advance s) t rest w) : ScansAs start (s ++ t) rest (v ++ w) := by
  obtain ⟨first, hfirst, htrim, hv⟩ := hs
  obtain ⟨second, hsecond, htrim', hw⟩ := ht
  refine ⟨first ++ second, ?_, ?_, ?_⟩
  · rw [List.append_assoc, hfirst, hsecond, Cursor.advance_append]
    simp only [Scan.prepend, List.append_assoc]
  · intro token htoken
    exact (List.mem_append.1 htoken).elim (htrim token) (htrim' token)
  · rw [List.map_append]
    exact Symbol.ofPieces_append hv hw

/-- A token that has a symbol is scanned as that symbol. -/
theorem single {t : Text} {token : Token} {x : Symbol}
    (hscan : scanFrom .braces start (t ++ rest) =
      (scanFrom .braces (start.advance t) rest).prepend [token])
    (htrim : token.IsTrim) (hx : token.toPiece.symbol? = .ok (some x)) :
    ScansAs start t rest [x] := by
  refine ⟨[token], hscan, fun _ h => List.mem_singleton.1 h ▸ htrim, ?_⟩
  exact Except.bind_eq_ok.2 ⟨some x, hx, rfl⟩

theorem text {t : Text} (h : t.IsPrintable)
    (hrest : rest = [] ∨ Delimiters.braces.opening <+: rest) :
    ScansAs start t rest [.leaf (.text t h.isTrim.ne_nil)] := by
  have hne := h.isTrim.ne_nil
  refine single (scanFrom_text hne h.opening h.brace h.backslash hrest start) h.isTrim ?_
  show Piece.symbol? (.text t) = _
  rw [Piece.symbol?, dif_neg hne]

/-- A tag is scanned as its symbol. -/
theorem tag {raw content : Text} {kind : TagKind} {x : Symbol}
    (hraw : Delimiters.braces.opening <+: raw) (hkind : ∀ next, kind ≠ .delimiters next)
    (hread : Tag.read .braces start (raw ++ rest) =
      .ok (⟨kind, raw, content, start, false, false⟩, rest))
    (hx : Piece.symbol? (.tag ⟨kind, raw, content, start, false, false⟩ none) = .ok (some x)) :
    ScansAs start raw rest [x] := by
  have hscan := scanFrom_tag (hraw.trans (List.prefix_append raw rest)) hread
  have hafter : Tag.delimitersAfter ⟨kind, raw, content, start, false, false⟩ .braces =
      .braces := by
    cases kind with
    | delimiters next => exact absurd rfl (hkind next)
    | _ => rfl
  rw [hafter] at hscan
  exact single hscan trivial hx

/-- A tag with a sigil is scanned as its symbol. -/
theorem sigil {kind : TagKind} {c : Char} (hkind : kind.sigil? = some c) {content : Text}
    (hcontent : content.IsTrim) (hclosing : ¬Delimiters.braces.closing <:+: content) {x : Symbol}
    (hx : Piece.symbol? (.tag ⟨kind, Tag.print (c :: ' ' :: content), content, start, false, false⟩
      none) = .ok (some x)) :
    ScansAs start (Tag.print (c :: ' ' :: content)) rest [x] := by
  have hc : c ∉ ['~', '!', '=', '\x7b', '\x7d'] ∧ isBlank c = false ∧
      ∀ next, kind ≠ .delimiters next := by
    cases kind with
    | escaped | otherwise | comment | delimiters next =>
      exact absurd hkind (by simp [TagKind.sigil?])
    | unescaped | block | inverted | close | partialRef =>
      obtain rfl := Option.some.inj hkind
      exact ⟨by decide, by decide, by simp⟩
  obtain ⟨hmark, hblank, hdelimiters⟩ := hc
  have htrim : Text.IsTrim (c :: ' ' :: content) :=
    Text.IsTrim.append ⟨⟨c, [], rfl, hblank⟩, ⟨[], c, rfl, hblank⟩⟩ hcontent [' ']
  have hinside : ¬Delimiters.braces.closing <:+: c :: ' ' :: content := by
    intro hin
    rcases List.infix_cons_iff.1 hin with hstart | hin
    · obtain ⟨rfl, -⟩ := List.cons_prefix_cons.1 hstart
      exact hmark (by decide)
    rcases List.infix_cons_iff.1 hin with hstart | hin
    · exact absurd (List.cons_prefix_cons.1 hstart).1 (by decide)
    · exact hclosing hin
  have hfirst : ∃ d t, c :: ' ' :: content = d :: t ∧ d ∉ ['~', '!', '=', '\x7b'] := by
    refine ⟨c, _, rfl, fun hmem => hmark ?_⟩
    simp only [List.mem_cons, List.not_mem_nil, or_false] at hmem ⊢
    tauto
  refine tag (List.prefix_append _ _) hdelimiters (Tag.read_print hfirst hinside ?_ start rest) hx
  rw [htrim.strip_eq]
  exact TagKind.ofPlain_sigil hkind hcontent

/-- An output tag without a sigil is scanned as its symbol. -/
theorem output {call : Call} (h : call.IsPrintable) (hhead : call.head.BeginsOutput) :
    ScansAs start (Tag.print (' ' :: call.print)) rest
      [.leaf (.output true call start.position)] := by
  have htrim := h.isCanonical.isTrim_print
  have hinside : ¬Delimiters.braces.closing <:+: ' ' :: call.print := by
    intro hin
    rcases List.infix_cons_iff.1 hin with hstart | hin
    · exact absurd (List.cons_prefix_cons.1 hstart).1 (by decide)
    · exact h.closing hin
  have hkind : TagKind.ofPlain (Text.strip (' ' :: call.print)) = .ok (.escaped, call.print) := by
    rw [Text.strip_space_cons, htrim.strip_eq]
    exact TagKind.ofPlain_escaped htrim.ne_nil (hhead.not_mem_sigils h.isCanonical)
      (hhead.not_else h.isCanonical)
  have hread := Tag.read_print ⟨' ', _, rfl, by decide⟩ hinside hkind start rest
  refine tag (List.prefix_append _ _) (fun _ => TagKind.noConfusion) hread ?_
  show (Call.parse start.position call.print).map _ = _
  rw [Call.parse_print h.isCanonical]
  rfl

/-- A tag with a sigil and a call is scanned as what the call becomes there. -/
theorem call {kind : TagKind} {c : Char} (hkind : kind.sigil? = some c) {call : Call}
    (h : call.IsPrintable) {symbol : Call → Symbol}
    (hsymbol : Piece.symbol? (.tag ⟨kind, Tag.print (c :: ' ' :: call.print), call.print, start,
      false, false⟩ none) = (Call.parse start.position call.print).map fun c => some (symbol c)) :
    ScansAs start (Tag.print (c :: ' ' :: call.print)) rest [symbol call] := by
  refine sigil hkind h.isCanonical.isTrim_print h.closing ?_
  rw [hsymbol, Call.parse_print h.isCanonical]
  rfl

/-- The opening tag of a section is scanned as its symbol. -/
theorem opening {call : Call} (h : call.IsPrintable) (inverted : Bool) :
    ScansAs start (Tag.print ((if inverted then '^' else '#') :: ' ' :: call.print)) rest
      [.opening ⟨inverted, call, start.position⟩] := by
  cases inverted with
  | true => exact ScansAs.call (rfl : TagKind.inverted.sigil? = _) h rfl
  | false => exact ScansAs.call (rfl : TagKind.block.sigil? = _) h rfl

/-- The closing tag of a section is scanned as its symbol. -/
theorem closing {call : Call} (h : call.IsPrintable) :
    ScansAs start (Tag.print ('/' :: ' ' :: call.head.source)) rest
      [.closing call.head.source start.position] := by
  have htrim := Lexeme.isTrim_of_read? h.isCanonical.head.read?
  have hname : call.head.source <:+: call.print := (List.prefix_append _ _).isInfix
  exact sigil (rfl : TagKind.close.sigil? = _) htrim (fun hin => h.closing (hin.trans hname))
    rfl

end ScansAs

/-! ## The derivation of what is printed -/

namespace Node

theorem isText_unplaced (node : Node) : node.unplaced.isText = node.isText := by
  cases node <;> rfl

/-- Up to the places of tags, what is printed before others is put before them as it is. -/
theorem prepend_of_unplaced {node node' : Node} {nodes nodes' : List Node}
    (hfits : node.FitsBefore nodes) (hnode : node'.unplaced = node.unplaced)
    (hnodes : unplacedAll nodes' = unplacedAll nodes) : node'.prepend nodes' = node' :: nodes' := by
  have hkind : node'.isText = node.isText := by
    rw [← isText_unplaced, hnode, isText_unplaced]
  rcases node.text_or_isText with ⟨t, rfl⟩ | hnotText
  · cases nodes' with
    | nil => exact prepend_nil node'
    | cons next' rest' =>
      cases nodes with
      | nil => exact absurd hnodes (by simp [unplacedAll])
      | cons next rest =>
        refine prepend_cons_of_isText ?_ node' rest'
        have hnext : next'.isText = next.isText := by
          rw [← isText_unplaced, (List.cons.inj hnodes).1, isText_unplaced]
        rcases next.text_or_isText with ⟨s, rfl⟩ | hnotText
        · exact absurd rfl (hfits.2 s)
        · rw [hnext, hnotText]
  · exact prepend_of_isText (hkind.trans hnotText) nodes'

/-- What is printed of a node other than a text begins with a tag. -/
theorem opening_prefix_print {node : Node} (h : node.isText = false) :
    Delimiters.braces.opening <+: node.print := by
  cases node with
  | text t => exact Bool.noConfusion h
  | comment t => exact List.prefix_append _ _
  | output escaped call position => exact List.prefix_append _ _
  | block inverted call body inverse position =>
    exact (List.prefix_append _ _).trans (List.prefix_append _ _)
  | partialTag call indent position => exact List.prefix_append _ _

/-- Behind a text, what is printed is at its end or begins with a tag. -/
theorem opening_prefix_printAll {node : Node} {nodes : List Node} (hfits : node.FitsBefore nodes)
    (htext : node.isText = true) {rest : Text}
    (hrest : rest = [] ∨ Delimiters.braces.opening <+: rest) :
    printAll nodes ++ rest = [] ∨ Delimiters.braces.opening <+: printAll nodes ++ rest := by
  cases nodes with
  | nil => exact hrest
  | cons next nodes =>
    right
    rcases next.text_or_isText with ⟨s, rfl⟩ | hnext
    · cases node with
      | text t => exact absurd rfl (hfits.2 s)
      | _ => exact Bool.noConfusion htext
    · rw [printAll, List.append_assoc]
      exact (opening_prefix_print hnext).trans (List.prefix_append _ _)

/-- Behind the body of a section stands a tag, be it an else tag or the closing tag. -/
theorem opening_prefix_branch (inverse : Option (List Node)) (inside rest : Text) :
    Delimiters.braces.opening <+: printBranch inverse ++ Tag.print inside ++ rest := by
  refine List.IsPrefix.trans ?_ (List.prefix_append _ rest)
  cases inverse with
  | none => exact List.prefix_append _ _
  | some nodes => exact (List.prefix_append _ _).trans (List.prefix_append _ _)

mutual

/-- What is printed of a node is scanned as an item that stands for the node. -/
theorem exists_item : ∀ (node : Node), node.Tidy → node.IsPrintable → ∀ (start : Cursor)
    (rest : Text), (node.isText = true → rest = [] ∨ Delimiters.braces.opening <+: rest) →
    ∃ item : Item, ScansAs start node.print rest item.yield ∧ item.node.unplaced = node.unplaced
  | .text t, _, hprint, start, rest, hrest =>
    ⟨.leaf (.text t hprint.isTrim.ne_nil), ScansAs.text hprint (hrest rfl), rfl⟩
  | .comment t, _, hprint, start, rest, _ => by
    obtain ⟨hstrip, hend, htrimEnd⟩ := hprint
    have hread := Tag.read_printComment hstrip hend htrimEnd start rest
    exact ⟨.leaf (.comment t),
      ScansAs.tag (List.prefix_append _ _) (fun _ => TagKind.noConfusion) hread rfl, rfl⟩
  | .output escaped call position, _, hprint, start, rest, _ => by
    obtain ⟨hcall, hhead⟩ := hprint
    refine ⟨.leaf (.output escaped call start.position), ?_, rfl⟩
    cases escaped with
    | true => exact ScansAs.output hcall (hhead rfl)
    | false => exact ScansAs.call (rfl : TagKind.unescaped.sigil? = _) hcall rfl
  | .block inverted call body inverse position, htidy, hprint, start, rest, _ => by
    obtain ⟨hcall, hbody, hinverse⟩ := hprint
    let opening := Tag.print ((if inverted then '^' else '#') :: ' ' :: call.print)
    let closing := Tag.print ('/' :: ' ' :: call.head.source)
    obtain ⟨forest, hforest, hsame⟩ := exists_forest body htidy.1 hbody (start.advance opening)
      (printBranch inverse ++ closing ++ rest) (.inr (opening_prefix_branch inverse _ rest))
    obtain ⟨tail, htail, hsame'⟩ := exists_tail inverse htidy.2 hinverse
      ((start.advance opening).advance (printAll body)) (closing ++ rest)
      (.inr (opening_prefix_branch none _ rest))
    let closedAt := ((start.advance opening).advance (printAll body)).advance (printBranch inverse)
    have hopening : ScansAs start opening
        (printAll body ++ (printBranch inverse ++ closing) ++ rest)
        [.opening ⟨inverted, call, start.position⟩] := ScansAs.opening hcall inverted
    have hclosing : ScansAs closedAt closing rest
        [.closing call.head.source closedAt.position] := ScansAs.closing hcall
    refine ⟨.block ⟨inverted, call, start.position⟩ forest tail closedAt.position, ?_, ?_⟩
    · have hall := hopening.append (hforest.append (htail.append hclosing))
      rw [Item.yield, List.append_assoc]
      exact hall
    · rw [Item.node, unplaced, unplaced, hsame, hsame']
  | .partialTag call indent position, _, hprint, start, rest, _ => by
    obtain ⟨hcall, hclosing, rfl⟩ := hprint
    refine ⟨.leaf (.partialTag call [] start.position), ?_, rfl⟩
    refine ScansAs.sigil (rfl : TagKind.partialRef.sigil? = _) hcall.isTrim_print hclosing ?_
    show (PartialCall.parse start.position call.print).map _ = _
    rw [PartialCall.parse_print hcall]
    rfl

/-- What is printed of nodes is scanned as a forest that stands for them. -/
theorem exists_forest : ∀ (nodes : List Node), AllTidy nodes → AllPrintable nodes →
    ∀ (start : Cursor) (rest : Text), (rest = [] ∨ Delimiters.braces.opening <+: rest) →
    ∃ forest : Forest, ScansAs start (printAll nodes) rest forest.yield ∧
      unplacedAll forest.nodes = unplacedAll nodes
  | [], _, _, start, rest, _ => ⟨.nil, ScansAs.nil, rfl⟩
  | node :: nodes, htidy, hprint, start, rest, hrest => by
    obtain ⟨hnode, hfits, hnodes⟩ := htidy
    obtain ⟨item, hitem, hsame⟩ := exists_item node hnode hprint.1 start (printAll nodes ++ rest)
      fun htext => opening_prefix_printAll hfits htext hrest
    obtain ⟨forest, hforest, hsames⟩ := exists_forest nodes hnodes hprint.2
      (start.advance node.print) rest hrest
    refine ⟨.cons item forest, hitem.append hforest, ?_⟩
    rw [Forest.nodes, prepend_of_unplaced hfits hsame hsames, unplacedAll, hsame, hsames,
      unplacedAll]

/-- What is printed of a branch is scanned as a tail that stands for it. -/
theorem exists_tail : ∀ (inverse : Option (List Node)), BranchTidy inverse →
    BranchPrintable inverse → ∀ (start : Cursor) (rest : Text),
    (rest = [] ∨ Delimiters.braces.opening <+: rest) →
    ∃ tail : Tail, ScansAs start (printBranch inverse) rest tail.yield ∧
      unplacedBranch tail.branch = unplacedBranch inverse
  | none, _, _, start, rest, _ => ⟨.nil, ScansAs.nil, rfl⟩
  | some nodes, htidy, hprint, start, rest, hrest => by
    obtain ⟨forest, hforest, hsame⟩ := exists_forest nodes htidy hprint
      (start.advance Tag.printElse) rest hrest
    refine ⟨.otherwise start.position forest, ?_, congrArg some hsame⟩
    exact ScansAs.append (ScansAs.tag (List.prefix_append _ _) (fun _ => TagKind.noConfusion)
      (Tag.read_printElse start (printAll nodes ++ rest)) rfl) hforest

end

end Node

/-! ## Whole templates -/

/-- **What is printed of a tree is read back as that tree**, up to the places of its tags. -/
theorem Node.parse_printAll {nodes : List Node} (htidy : Node.AllTidy nodes)
    (hprintable : Node.AllPrintable nodes) :
    (Node.parse .braces (Node.printAll nodes)).map Node.unplacedAll =
      .ok (Node.unplacedAll nodes) := by
  obtain ⟨forest, ⟨tokens, hscan, htrim, hsymbols⟩, hsame⟩ :=
    Node.exists_forest nodes htidy hprintable .start [] (.inl rfl)
  rw [List.append_nil, scanFrom_nil] at hscan
  have hpieces : Symbol.ofPieces (Piece.arrange tokens) = .ok forest.yield := by
    rw [Piece.arrange, Symbol.ofPieces_arrangeFrom (by simp) htrim, hsymbols]
  have htree : Node.ofTokens tokens = .ok forest.nodes := by
    rw [Node.ofTokens, OpenForest.ofPieces_eq hpieces, OpenForest.yield_eq_iff.1 rfl]
    exact OpenForest.finish_builder_nil forest
  rw [Node.parse, scan, hscan]
  show (Node.ofTokens (tokens ++ [])).map Node.unplacedAll = _
  rw [List.append_nil, htree, ← hsame]
  rfl

/-- A section with both branches, whose parameter holds an opening delimiter in quotes, and a
partial tag with a bracketed name. -/
theorem Node.parse_printAll_section :
    ∃ nodes, Node.AllTidy nodes ∧ Node.AllPrintable nodes ∧
      Node.printAll nodes = ("a\x7b\x7b# if (eq ../b '\x7b\x7b') \x7d\x7d\x7b\x7b x \x7d\x7d." ++
        "\x7b\x7belse\x7d\x7d\x7b\x7b!-- n --\x7d\x7d" ++
        "\x7b\x7b> [a b] this k=-1.5 \x7d\x7d\x7b\x7b/ if \x7d\x7d").toList ∧
      (Node.parse .braces (Node.printAll nodes)).map Node.unplacedAll =
        .ok (Node.unplacedAll nodes) := by
  let parent : Path := ⟨"../b".toList, ["b".toList], 1, false⟩
  let braces : Expr := .literal (Literal.quoteWith '\'' "\x7b\x7b".toList) (.text "\x7b\x7b".toList)
  let number : Expr := .literal "-1.5".toList (.ofNumber "-1.5".toList)
  let condition : Call := ⟨⟨"eq".toList, ["eq".toList], 0, false⟩, [.path parent, braces], []⟩
  let choice : Call := ⟨⟨"if".toList, ["if".toList], 0, false⟩, [condition.toExpr], []⟩
  let value : Call := ⟨⟨"x".toList, ["x".toList], 0, false⟩, [], []⟩
  let insertion : PartialCall := ⟨.literal "[a b]".toList (.text "a b".toList),
    some (.path ⟨"this".toList, [], 0, false⟩), [("k".toList, number)]⟩
  have hparent : parent.IsCanonical := ⟨by decide +kernel, by decide, by decide +kernel⟩
  have hcondition : condition.toExpr.IsCanonical := .call
    ⟨by decide +kernel, by decide, by decide +kernel⟩
    (List.forall_mem_cons.2 ⟨.path hparent,
      List.forall_mem_singleton.2 (Expr.isCanonical_quoteWith (.inr rfl) _)⟩)
    (List.forall_mem_nil _) (List.forall_mem_nil _)
  have hchoice : choice.IsCanonical :=
    ⟨⟨by decide +kernel, by decide, by decide +kernel⟩, List.forall_mem_singleton.2 hcondition,
      List.forall_mem_nil _, List.forall_mem_nil _⟩
  have hvalue : value.IsCanonical :=
    ⟨⟨by decide +kernel, by decide, by decide +kernel⟩, List.forall_mem_nil _,
      List.forall_mem_nil _, List.forall_mem_nil _⟩
  have hinsertion : insertion.IsCanonical :=
    ⟨.literal (by decide +kernel : _ = some (.word "[a b]".toList, [])) rfl,
      List.forall_mem_singleton.2 (.path ⟨by decide +kernel, by decide, by decide +kernel⟩),
      List.forall_mem_singleton.2 ⟨'k', [], rfl, by decide, List.forall_mem_nil _⟩,
      List.forall_mem_singleton.2
        (.literal (by decide +kernel : _ = some (.number "-1.5".toList, [])) rfl)⟩
  let nodes : List Node := [.text ['a'], .block false choice
    [.output true value .none, .text ['.']]
    (some [.comment ['n'], .partialTag insertion [] .none]) .none]
  have htidy : Node.AllTidy nodes := by
    simp [nodes, Node.AllTidy, Node.Tidy, Node.BranchTidy, Node.FitsBefore]
  have hbegins : value.head.BeginsOutput := by
    refine ⟨by decide, ?_⟩
    rintro c t h
    obtain ⟨rfl, -⟩ := List.cons.inj h
    decide
  have ha : Text.IsPrintable ['a'] := Text.isPrintable_singleton (by decide) (by decide)
  have hdot : Text.IsPrintable ['.'] := Text.isPrintable_singleton (by decide) (by decide)
  have hbody : Node.AllPrintable [.output true value .none, .text ['.']] :=
    ⟨⟨⟨hvalue, by decide +kernel⟩, fun _ => hbegins⟩, hdot, trivial⟩
  have hinverse : Node.AllPrintable [.comment ['n'], .partialTag insertion [] .none] :=
    ⟨⟨by decide, by decide, by decide⟩, ⟨hinsertion, by decide +kernel, rfl⟩, trivial⟩
  have hprintable : Node.AllPrintable nodes :=
    ⟨ha, ⟨⟨hchoice, by decide +kernel⟩, hbody, hinverse⟩, trivial⟩
  exact ⟨nodes, htidy, hprintable, by decide +kernel, Node.parse_printAll htidy hprintable⟩

end Stencil
