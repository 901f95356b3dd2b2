import Mathlib.Data.List.Nodup
import Formulary.Expr.Text
import Formulary.Proofs.Decimal.Characters
import Formulary.Proofs.Evaluation.Validity
import Formulary.Proofs.Signature.ArgumentLists

/-!
# Reading expressions off their texts

The text of an expression mixes names in front of parentheses, operators between
arguments, and bare words for constants and variables.  This module shows that the
text of a valid expression nevertheless says what the expression is: where one such
text ends is seen from the text itself, and what it was made of is found again.

Main results:

- Definition `Expr.spelled`: what of an expression is in its text.
- Theorem `Expr.toList_render_op`: the parts of the text of an operation.
- Theorem `Expr.readsOneWay`: whatever follows it, the text of an expression with legible
  nodes is read in one way.
- Theorem `Expr.text_eq_iff`: valid expressions have one text exactly when they are
  spelled alike.
-/

namespace Formulary

open Text

variable {α : Type}

/-! ## What is in a text -/

/-- A label with its constant as it is written. -/
def Label.spelled (constant : α → String) : Label α → Label String
  | .const value => .const (constant value)
  | .var name => .var name
  | .op operation => .op operation

namespace Expr

/-- What of an expression is in its text: its labels, with constants as they are
written, and the children of each node in order.  Identifiers are left out. -/
def spelled (constant : α → String) (expr : Expr α) : Expr String :=
  Tree.fold (fun mark children => Tree.node ⟨mark.label.spelled constant, none⟩ children) expr

@[simp]
theorem spelled_node (constant : α → String) (mark : Mark α) (children : List (Expr α)) :
    spelled constant (Tree.node mark children) =
      Tree.node ⟨mark.label.spelled constant, none⟩ (children.map (spelled constant)) :=
  Tree.fold_node _ mark children

/-- The text is made of what is spelled. -/
theorem render_spelled (constant : α → String) (expr : Expr α) :
    render id (expr.spelled constant) = render constant expr := by
  induction expr using Tree.induct with
  | step mark children ih =>
    have parts : (children.map (spelled constant)).map (render id) =
        children.map (render constant) := by
      rw [List.map_map]
      exact List.map_congr_left ih
    rw [spelled_node, render_node, render_node, parts]
    rcases mark with ⟨_ | _ | ⟨_ | op | _⟩, id⟩
    case op.binary => cases op <;> rfl
    all_goals rfl

end Expr

/-! ## Words -/

/-- The characters of names, numbers and operators. -/
def isWordChar (c : Char) : Bool :=
  c != '(' && c != ')' && c != ',' && c != ' '

/-- A word is made of such characters and is not empty. -/
def IsWord (text : List Char) : Prop :=
  text ≠ [] ∧ ∀ c ∈ text, isWordChar c = true

theorem isWord_of_isIdentifier {text : List Char} (identifier : isIdentifier text = true) :
    IsWord text := by
  refine ⟨?_, ?_⟩
  · rintro rfl
    cases identifier
  · intro c member
    have rest := isIdentifierRest_of_mem identifier member
    simp only [isWordChar, Bool.and_eq_true, bne_iff_ne]
    refine ⟨⟨⟨?_, ?_⟩, ?_⟩, ?_⟩
    all_goals
      rintro rfl
      cases rest

theorem isWord_of_isDecimal {text : List Char} (decimal : Decimal.isDecimal text = true) :
    IsWord text := by
  refine ⟨?_, ?_⟩
  · rintro rfl
    cases decimal
  · intro c member
    have numeric := Decimal.isNumeric_of_mem decimal member
    simp only [isWordChar, Bool.and_eq_true, bne_iff_ne]
    refine ⟨⟨⟨?_, ?_⟩, ?_⟩, ?_⟩
    all_goals
      rintro rfl
      cases numeric

/-- No identifier starts with a digit. -/
theorem not_isIdentifierStart_of_isDigit {c : Char} (digit : c.isDigit = true) :
    ¬ isIdentifierStart c = true := by
  have low : c.val ≤ '9'.val := of_decide_eq_true (Bool.and_eq_true_iff.1 digit).2
  intro start
  rcases Bool.or_eq_true_iff.1 start with letter | underscore
  · rcases Bool.or_eq_true_iff.1 letter with upper | lower
    · have high : 'A'.val ≤ c.val ∧ c.val ≤ 'Z'.val := of_decide_eq_true upper
      exact absurd (Nat.le_trans high.1 low) (by decide)
    · have high : 'a'.val ≤ c.val := of_decide_eq_true (Bool.and_eq_true_iff.1 lower).1
      exact absurd (Nat.le_trans high low) (by decide)
  · obtain rfl := beq_iff_eq.1 underscore
    exact absurd low (by decide)

/-- No decimal is an identifier. -/
theorem ne_of_isDecimal_of_isIdentifier {text name : List Char}
    (decimal : Decimal.isDecimal text = true) (identifier : isIdentifier name = true) :
    text ≠ name := by
  rintro rfl
  cases text with
  | nil => cases decimal
  | cons c rest =>
    simp only [Decimal.isDecimal, isIdentifier, Bool.and_eq_true, Bool.or_eq_true, beq_iff_eq]
      at decimal identifier
    obtain ⟨digit | rfl, -⟩ := decimal
    · exact not_isIdentifierStart_of_isDigit digit identifier.1
    · cases identifier.1

/-- A text that follows an expression: nothing, or a text that begins with a closing
parenthesis, a comma or a blank. -/
def Closes (text : List Char) : Prop :=
  ∀ c, text.head? = some c → c = ')' ∨ c = ',' ∨ c = ' '

theorem closes_cons {c : Char} (closing : c = ')' ∨ c = ',' ∨ c = ' ') (rest : List Char) :
    Closes (c :: rest) := by
  intro first same
  cases same
  exact closing

/-- No word goes on behind an expression. -/
theorem Closes.stops {text : List Char} (closes : Closes text) : Stops isWordChar text := by
  intro c first
  rcases closes c first with rfl | rfl | rfl
  all_goals rfl

/-! ## Operators as words -/

namespace Operation

/-- The operators that are written between their arguments. -/
def isInfix : Operation → Bool
  | binary op => op != .atan2
  | _ => false

/-- The word in front of the parentheses, of which there is none if the operator is
written between its arguments. -/
def lead (operation : Operation) : List Char :=
  if operation.isInfix then [] else operation.symbol.toList

/-- What is written between two arguments. -/
def separator (operation : Operation) : List Char :=
  if operation.isInfix then ' ' :: (operation.symbol.toList ++ [' ']) else [',', ' ']

theorem mem_all (operation : Operation) : operation ∈ all := by
  cases operation with
  | unary op => cases op <;> decide
  | binary op => cases op <;> decide
  | reduction op => cases op <;> decide

/-- No two operations have the same symbol. -/
theorem symbol_injective {operation other : Operation} (same : operation.symbol = other.symbol) :
    operation = other := by
  have distinct : (all.map symbol).Nodup := by decide +kernel
  exact List.inj_on_of_nodup_map distinct operation.mem_all other.mem_all same

/-- A symbol is a word. -/
theorem isWord_symbol (operation : Operation) : IsWord operation.symbol.toList := by
  have words : (all.all fun operation => !operation.symbol.toList.isEmpty &&
      operation.symbol.toList.all isWordChar) = true := by decide +kernel
  have word := List.all_eq_true.1 words operation operation.mem_all
  rw [Bool.and_eq_true, List.all_eq_true, Bool.not_eq_true', List.isEmpty_eq_false_iff] at word
  exact word

theorem isWordChar_of_mem_lead {operation : Operation} :
    ∀ c ∈ operation.lead, isWordChar c = true := by
  unfold lead
  split
  · intro c member
    cases member
  · exact (isWord_symbol operation).2

/-- Operators with the same word in front are the same, unless both are written between
their arguments. -/
theorem eq_of_lead {operation other : Operation} (same : operation.lead = other.lead) :
    operation = other ∨ operation.isInfix = true ∧ other.isInfix = true := by
  unfold lead at same
  split at same
  · next between =>
    split at same
    · next other_between => exact .inr ⟨between, other_between⟩
    · exact absurd same.symm (isWord_symbol other).1
  · split at same
    · exact absurd same (isWord_symbol operation).1
    · exact .inl (symbol_injective (String.toList_inj.1 same))

end Operation

namespace Expr

variable {constant : α → String}

/-! ## Parts of a text -/

/-- A node has the children that it takes; a constant is written as a decimal, and a
variable has an identifier for a name. -/
def IsLegible (constant : α → String) (node : Expr α) : Prop :=
  hasAdmittedArity node = true ∧
    match node.value.label with
    | .const value => Decimal.isDecimal (constant value).toList = true
    | .var name => isIdentifier name.toList = true
    | .op _ => True

/-- The text of an operation: its word, and its arguments in parentheses with the
separator between them. -/
theorem toList_render_op {mark : Mark α} {operation : Operation}
    (label : mark.label = .op operation) {children : List (Expr α)}
    (admitted : operation.kind.admits children.length = true) :
    (render constant (Tree.node mark children)).toList =
      operation.lead ++ '(' :: (operation.separator.intercalate
        (children.map fun child => (render constant child).toList) ++ [')']) := by
  have parts : (children.map (render constant)).map String.toList =
      children.map fun child => (render constant child).toList := List.map_map
  rw [render_node, renderNode, label]
  cases operation with
  | unary op =>
    obtain ⟨child, rfl⟩ := List.length_eq_one_iff.1 (beq_iff_eq.1 admitted)
    simp [Operation.lead, Operation.separator, Operation.isInfix, Operation.symbol]
  | binary op =>
    cases op
    all_goals
      simp [Operation.lead, Operation.separator, Operation.isInfix, Operation.symbol,
        BinaryOp.symbol, parts]
  | reduction op =>
    simp [Operation.lead, Operation.separator, Operation.isInfix, Operation.symbol, parts]

/-- An operation has as many children as it takes. -/
theorem IsLegible.admits {mark : Mark α} {operation : Operation} {children : List (Expr α)}
    (legible : IsLegible constant (Tree.node mark children)) (label : mark.label = .op operation) :
    operation.kind.admits children.length = true := by
  have admitted := legible.1
  rwa [hasAdmittedArity, Tree.value_node, label] at admitted

/-- A constant or variable has no children.  Its text is a decimal or an identifier. -/
theorem IsLegible.leaf_cases {mark : Mark α} {children : List (Expr α)}
    (legible : IsLegible constant (Tree.node mark children)) (leaf : mark.label.isLeaf = true) :
    children = [] ∧
      ((∃ value, mark.label = .const value ∧
          render constant (Tree.node mark children) = constant value ∧
            Decimal.isDecimal (constant value).toList = true) ∨
        ∃ name, mark.label = .var name ∧ render constant (Tree.node mark children) = name ∧
          isIdentifier name.toList = true) := by
  obtain ⟨admitted, spelling⟩ := legible
  rw [Tree.value_node] at spelling
  rw [hasAdmittedArity, Tree.value_node, Tree.children_node] at admitted
  rw [render_node, renderNode]
  cases label : mark.label with
  | const value =>
    rw [label] at admitted spelling
    exact ⟨List.length_eq_zero_iff.1 (beq_iff_eq.1 admitted), .inl ⟨value, rfl, rfl, spelling⟩⟩
  | var name =>
    rw [label] at admitted spelling
    exact ⟨List.length_eq_zero_iff.1 (beq_iff_eq.1 admitted), .inr ⟨name, rfl, rfl, spelling⟩⟩
  | op operation =>
    rw [label] at leaf
    cases leaf

/-- The text of a constant or variable is a word. -/
theorem IsLegible.isWord_render {mark : Mark α} {children : List (Expr α)}
    (legible : IsLegible constant (Tree.node mark children)) (leaf : mark.label.isLeaf = true) :
    IsWord (render constant (Tree.node mark children)).toList := by
  obtain ⟨-, ⟨value, -, text, decimal⟩ | ⟨name, -, text, identifier⟩⟩ := legible.leaf_cases leaf
  · rw [text]
    exact isWord_of_isDecimal decimal
  · rw [text]
    exact isWord_of_isIdentifier identifier

/-- Constants and variables with one text are spelled alike. -/
theorem IsLegible.spelled_eq {mark other : Mark α} {children others : List (Expr α)}
    (legible : IsLegible constant (Tree.node mark children)) (leaf : mark.label.isLeaf = true)
    (other_legible : IsLegible constant (Tree.node other others))
    (other_leaf : other.label.isLeaf = true)
    (same : render constant (Tree.node mark children) =
      render constant (Tree.node other others)) :
    spelled constant (Tree.node mark children) = spelled constant (Tree.node other others) := by
  obtain ⟨rfl, ⟨value, label, text, decimal⟩ | ⟨name, label, text, identifier⟩⟩ :=
    legible.leaf_cases leaf
  all_goals
    obtain ⟨rfl, ⟨number, other_label, other_text, other_decimal⟩ |
      ⟨word, other_label, other_text, other_identifier⟩⟩ := other_legible.leaf_cases other_leaf
  all_goals rw [text, other_text] at same
  · rw [spelled_node, spelled_node, label, other_label, Label.spelled, Label.spelled, same]
  · rw [same] at decimal
    exact absurd rfl (ne_of_isDecimal_of_isIdentifier decimal other_identifier)
  · rw [← same] at other_decimal
    exact absurd rfl (ne_of_isDecimal_of_isIdentifier other_decimal identifier)
  · rw [spelled_node, spelled_node, label, other_label, same]

/-! ## Reading in one way -/

/-- Whatever follows it, the text of an expression is that of no expression that is
spelled differently. -/
def ReadsOneWay (constant : α → String) (expr : Expr α) : Prop :=
  ∀ (other : Expr α) (rest behind : List Char),
    (∀ node ∈ other.preorder, IsLegible constant node) → Closes rest → Closes behind →
    (render constant expr).toList ++ rest = (render constant other).toList ++ behind →
    expr.spelled constant = other.spelled constant ∧ rest = behind

variable {rest behind : List Char}

/-- Arguments between commas are read in one way if each of them is. -/
theorem spelled_of_listed {children others : List (Expr α)} (nonempty : children ≠ [])
    (others_nonempty : others ≠ []) (each : ∀ child ∈ children, child.ReadsOneWay constant)
    (legible : ∀ other ∈ others, ∀ node ∈ other.preorder, IsLegible constant node)
    (same : [',', ' '].intercalate (children.map fun child => (render constant child).toList) ++
        ')' :: rest =
      [',', ' '].intercalate (others.map fun other => (render constant other).toList) ++
        ')' :: behind) :
    children.map (spelled constant) = others.map (spelled constant) ∧ rest = behind := by
  induction children generalizing others with
  | nil => exact absurd rfl nonempty
  | cons child more ih =>
    obtain ⟨other, further, rfl⟩ := List.exists_cons_of_ne_nil others_nonempty
    have first := fun rest behind => each child List.mem_cons_self other rest behind
      (legible other List.mem_cons_self)
    have parenthesis : ∀ rest, Closes (')' :: rest) := closes_cons (.inl rfl)
    have comma : ∀ rest, Closes (',' :: rest) := closes_cons (.inr (.inl rfl))
    -- both lists go on with a comma, or both end; else a comma would be a parenthesis
    cases more with
    | nil =>
      cases further with
      | nil =>
        simp only [List.map_cons, List.map_nil, List.intercalate_singleton] at same ⊢
        obtain ⟨spelled_same, ends⟩ := first _ _ (parenthesis _) (parenthesis _) same
        exact ⟨by rw [spelled_same], List.tail_eq_of_cons_eq ends⟩
      | cons next further =>
        simp only [List.map_cons, List.map_nil, List.intercalate_singleton,
          List.intercalate_cons_cons, List.append_assoc, List.cons_append] at same
        obtain ⟨-, ends⟩ := first _ _ (parenthesis _) (comma _) same
        exact absurd (List.head_eq_of_cons_eq ends) (by decide)
    | cons second more =>
      cases further with
      | nil =>
        simp only [List.map_cons, List.map_nil, List.intercalate_singleton,
          List.intercalate_cons_cons, List.append_assoc, List.cons_append] at same
        obtain ⟨-, ends⟩ := first _ _ (comma _) (parenthesis _) same
        exact absurd (List.head_eq_of_cons_eq ends) (by decide)
      | cons next further =>
        simp only [List.map_cons, List.intercalate_cons_cons, List.append_assoc,
          List.cons_append, List.nil_append] at same
        obtain ⟨spelled_same, ends⟩ := first _ _ (comma _) (comma _) same
        obtain ⟨others_same, rest_same⟩ := ih (List.cons_ne_nil _ _)
          (List.cons_ne_nil next further)
          (fun child member => each child (List.mem_cons_of_mem _ member))
          (fun other member => legible other (List.mem_cons_of_mem _ member))
          (List.tail_eq_of_cons_eq (List.tail_eq_of_cons_eq ends))
        exact ⟨congrArg₂ List.cons spelled_same others_same, rest_same⟩

/-- Two arguments around an operator are read in one way if each of them is, and the
operator is read, too. -/
theorem spelled_of_between {operation other_operation : Operation}
    (between : operation.isInfix = true) (other_between : other_operation.isInfix = true)
    {left right other_left other_right : Expr α} (left_reads : left.ReadsOneWay constant)
    (right_reads : right.ReadsOneWay constant)
    (left_legible : ∀ node ∈ other_left.preorder, IsLegible constant node)
    (right_legible : ∀ node ∈ other_right.preorder, IsLegible constant node)
    (same : operation.separator.intercalate
        ([left, right].map fun child => (render constant child).toList) ++ ')' :: rest =
      other_operation.separator.intercalate
        ([other_left, other_right].map fun other => (render constant other).toList) ++
          ')' :: behind) :
    operation = other_operation ∧ left.spelled constant = other_left.spelled constant ∧
      right.spelled constant = other_right.spelled constant ∧ rest = behind := by
  simp only [List.map_cons, List.map_nil, List.intercalate_cons_cons, List.intercalate_singleton,
    Operation.separator, between, other_between, if_true, List.append_assoc, List.cons_append,
    List.nil_append] at same
  have blank : ∀ rest, Closes (' ' :: rest) := closes_cons (.inr (.inr rfl))
  have stops : ∀ rest, Stops isWordChar (' ' :: rest) := stops_cons rfl
  obtain ⟨left_same, operators⟩ := left_reads _ _ _ left_legible (blank _) (blank _) same
  obtain ⟨symbols, rights⟩ := append_inj_of_stops operation.isWord_symbol.2 (stops _)
    other_operation.isWord_symbol.2 (stops _) (List.tail_eq_of_cons_eq operators)
  have parenthesis : ∀ rest, Closes (')' :: rest) := closes_cons (.inl rfl)
  obtain ⟨right_same, ends⟩ := right_reads _ _ _ right_legible (parenthesis _) (parenthesis _)
    (List.tail_eq_of_cons_eq rights)
  exact ⟨Operation.symbol_injective (String.toList_inj.1 symbols), left_same, right_same,
    List.tail_eq_of_cons_eq ends⟩

/-- An operator that is written between its arguments takes two. -/
theorem exists_pair_of_isInfix {operation : Operation} (between : operation.isInfix = true)
    {children : List (Expr α)} (admitted : operation.kind.admits children.length = true) :
    ∃ left right, children = [left, right] := by
  cases operation with
  | binary op => exact List.length_eq_two.1 (beq_iff_eq.1 admitted)
  | unary op => cases between
  | reduction op => cases between

/-- Every operation has a child. -/
theorem ne_nil_of_admits {operation : Operation} {children : List (Expr α)}
    (admitted : operation.kind.admits children.length = true) : children ≠ [] := by
  rintro rfl
  cases operation <;> cases admitted

/-- What is said of the text of a constant or variable is not said of an operation, which
has a parenthesis behind its word. -/
theorem IsLegible.append_ne_of_op {mark other : Mark α} {operation : Operation}
    {children others : List (Expr α)} (legible : IsLegible constant (Tree.node mark children))
    (leaf : mark.label.isLeaf = true) (label : other.label = .op operation)
    (admitted : operation.kind.admits others.length = true) (closes : Closes rest) :
    (render constant (Tree.node mark children)).toList ++ rest ≠
      (render constant (Tree.node other others)).toList ++ behind := by
  intro same
  rw [toList_render_op label admitted, List.append_assoc] at same
  obtain ⟨-, opening⟩ := append_inj_of_stops (legible.isWord_render leaf).2 closes.stops
    Operation.isWordChar_of_mem_lead (stops_cons rfl _) same
  exact absurd (closes '(' (by rw [opening]; rfl)) (by decide)

/-- The text of an operation is read in one way if those of its arguments are. -/
theorem spelled_of_operations {mark other : Mark α} {operation other_operation : Operation}
    {children others : List (Expr α)} (label : mark.label = .op operation)
    (other_label : other.label = .op other_operation)
    (admitted : operation.kind.admits children.length = true)
    (other_admitted : other_operation.kind.admits others.length = true)
    (each : ∀ child ∈ children, child.ReadsOneWay constant)
    (legible : ∀ other ∈ others, ∀ node ∈ other.preorder, IsLegible constant node)
    (same : (render constant (Tree.node mark children)).toList ++ rest =
      (render constant (Tree.node other others)).toList ++ behind) :
    spelled constant (Tree.node mark children) = spelled constant (Tree.node other others) ∧
      rest = behind := by
  rw [toList_render_op label admitted, toList_render_op other_label other_admitted] at same
  simp only [List.append_assoc, List.cons_append, List.nil_append] at same
  obtain ⟨leads, insides⟩ := append_inj_of_stops Operation.isWordChar_of_mem_lead
    (stops_cons rfl _) Operation.isWordChar_of_mem_lead (stops_cons rfl _) same
  have inner := List.tail_eq_of_cons_eq insides
  rw [spelled_node, spelled_node, label, other_label, Label.spelled, Label.spelled]
  by_cases between : operation.isInfix = true
  · have other_between : other_operation.isInfix = true := by
      rcases Operation.eq_of_lead leads with rfl | ⟨-, both⟩
      · exact between
      · exact both
    obtain ⟨left, right, rfl⟩ := exists_pair_of_isInfix between admitted
    obtain ⟨other_left, other_right, rfl⟩ := exists_pair_of_isInfix other_between other_admitted
    obtain ⟨rfl, lefts, rights, ends⟩ := spelled_of_between between other_between
      (each left (by simp)) (each right (by simp)) (legible other_left (by simp))
      (legible other_right (by simp)) inner
    rw [List.map_cons, List.map_cons, List.map_cons, List.map_cons, lefts, rights]
    exact ⟨rfl, ends⟩
  · have same_operation : operation = other_operation := by
      rcases Operation.eq_of_lead leads with same_operation | ⟨both, -⟩
      · exact same_operation
      · exact absurd both between
    subst same_operation
    rw [Operation.separator, if_neg between] at inner
    obtain ⟨arguments, ends⟩ := spelled_of_listed (ne_nil_of_admits admitted)
      (ne_nil_of_admits other_admitted) each legible inner
    rw [arguments]
    exact ⟨rfl, ends⟩

/-- The text of an expression with legible nodes is read in one way. -/
theorem readsOneWay {expr : Expr α} (legible : ∀ node ∈ expr.preorder, IsLegible constant node) :
    expr.ReadsOneWay constant := by
  induction expr using Tree.induct with
  | step mark children ih =>
    rintro ⟨other, others⟩ rest behind other_legible closes other_closes same
    have own := legible _ (Tree.self_mem_preorder _)
    have other_own := other_legible _ (Tree.self_mem_preorder _)
    by_cases leaf : mark.label.isLeaf = true
    · by_cases other_leaf : other.label.isLeaf = true
      · obtain ⟨texts, ends⟩ := append_inj_of_stops (own.isWord_render leaf).2 closes.stops
          (other_own.isWord_render other_leaf).2 other_closes.stops same
        exact ⟨own.spelled_eq leaf other_own other_leaf (String.toList_inj.1 texts), ends⟩
      · obtain ⟨operation, label⟩ := Label.isLeaf_eq_false_iff.1 (Bool.eq_false_iff.2 other_leaf)
        exact absurd same (own.append_ne_of_op leaf label (other_own.admits label) closes)
    · obtain ⟨operation, label⟩ := Label.isLeaf_eq_false_iff.1 (Bool.eq_false_iff.2 leaf)
      by_cases other_leaf : other.label.isLeaf = true
      · exact absurd same.symm
          (other_own.append_ne_of_op other_leaf label (own.admits label) other_closes)
      · obtain ⟨other_operation, other_label⟩ :=
          Label.isLeaf_eq_false_iff.1 (Bool.eq_false_iff.2 other_leaf)
        exact spelled_of_operations label other_label (own.admits label)
          (other_own.admits other_label)
          (fun child member => ih child member fun node listed =>
            legible node (Tree.mem_preorder_of_mem_child member listed))
          (fun child member node listed =>
            other_legible node (Tree.mem_preorder_of_mem_child member listed)) same

/-! ## Valid expressions -/

/-- The nodes of a valid expression over doubles are legible if its variables have
identifiers for names. -/
theorem isLegible_of_isValid {expr : Expr Float} (valid : expr.isValid = true)
    (named : ∀ name ∈ expr.variableNames, isIdentifier name.toList = true) {node : Expr Float}
    (member : node ∈ expr.preorder) (precision : Nat) :
    IsLegible (Decimal.general precision) node := by
  obtain ⟨admitted, finite⟩ := isSound_iff.1 (isValid_iff_isSound.1 valid node member)
  refine ⟨admitted, ?_⟩
  cases label : node.value.label with
  | op operation => trivial
  | var name => exact named name (mem_variableNames_iff.2 ⟨node, member, label⟩)
  | const value =>
    rw [hasFiniteValue, label] at finite
    exact Decimal.isDecimal_general finite precision

/-- Two valid expressions whose variables have identifiers for names have the same text
exactly when they are spelled alike: they have the same operators, names of variables,
and constants with the same six digits, at the same places. -/
theorem text_eq_iff {expr other : Expr Float} (valid : expr.isValid = true)
    (other_valid : other.isValid = true)
    (named : ∀ name ∈ expr.variableNames, isIdentifier name.toList = true)
    (other_named : ∀ name ∈ other.variableNames, isIdentifier name.toList = true) :
    expr.text = other.text ↔
      expr.spelled (Decimal.general 6) = other.spelled (Decimal.general 6) := by
  constructor
  · intro same
    have reads := readsOneWay fun node member => isLegible_of_isValid valid named member 6
    have ends : Closes [] := fun c first => by cases first
    refine (reads other [] [] ?_ ends ends ?_).1
    · exact fun node member => isLegible_of_isValid other_valid other_named member 6
    · exact congrArg (fun text : String => text.toList ++ []) same
  · intro same
    rw [text, text, ← render_spelled, same, render_spelled]

/-- The least of a constant and of the variable `x`. -/
def leastWithConstant (id : Option NodeId) (value : Float) : Expr Float :=
  .node ⟨.op (.reduction .min), id⟩ [.node ⟨.const value, none⟩ [], .node ⟨.var "x", none⟩ []]

theorem preorder_leastWithConstant (id : Option NodeId) (value : Float) :
    (leastWithConstant id value).preorder =
      [leastWithConstant id value, .node ⟨.const value, none⟩ [], .node ⟨.var "x", none⟩ []] :=
  rfl

theorem isValid_leastWithConstant (id : Option NodeId) {value : Float}
    (finite : Binary64.isFinite value = true) : (leastWithConstant id value).isValid = true := by
  refine isValid_iff_isSound.2 fun node member => ?_
  simp only [preorder_leastWithConstant, List.mem_cons, List.not_mem_nil, or_false] at member
  rcases member with rfl | rfl | rfl
  · exact Nat.le_succ 1
  · exact ⟨rfl, finite⟩
  · exact rfl

theorem isIdentifier_of_mem_leastWithConstant {id : Option NodeId} {value : Float} {name : String}
    (listed : name ∈ (leastWithConstant id value).variableNames) :
    isIdentifier name.toList = true := by
  obtain ⟨node, member, label⟩ := mem_variableNames_iff.1 listed
  simp only [preorder_leastWithConstant, List.mem_cons, List.not_mem_nil, or_false] at member
  rcases member with rfl | rfl | rfl
  · cases label
  · cases label
  · cases label
    decide

/-- Identifiers and digits behind the sixth are not in a text: two expressions that differ
in them have one text, and they are spelled alike. -/
theorem text_eq_iff_leastWithConstant :
    (leastWithConstant none 1).isValid = true ∧
      (leastWithConstant (some (.text "m")) 1.00000001).isValid = true ∧
      (∀ name ∈ (leastWithConstant none 1).variableNames, isIdentifier name.toList = true) ∧
      (∀ name ∈ (leastWithConstant (some (.text "m")) 1.00000001).variableNames,
        isIdentifier name.toList = true) ∧
      (leastWithConstant none 1).text = "min(1, x)" ∧
      (leastWithConstant (some (.text "m")) 1.00000001).text = "min(1, x)" ∧
      (leastWithConstant none 1).spelled (Decimal.general 6) =
        (leastWithConstant (some (.text "m")) 1.00000001).spelled (Decimal.general 6) := by
  have valid : (leastWithConstant none 1).isValid = true :=
    isValid_leastWithConstant none (by decide +kernel)
  have other_valid : (leastWithConstant (some (.text "m")) 1.00000001).isValid = true :=
    isValid_leastWithConstant (some (.text "m")) (by decide +kernel)
  have text : (leastWithConstant none 1).text = "min(1, x)" := by decide +kernel
  have other_text : (leastWithConstant (some (.text "m")) 1.00000001).text = "min(1, x)" := by
    decide +kernel
  have named : ∀ name ∈ (leastWithConstant none 1).variableNames,
      isIdentifier name.toList = true := fun _ => isIdentifier_of_mem_leastWithConstant
  have other_named : ∀ name ∈ (leastWithConstant (some (.text "m")) 1.00000001).variableNames,
      isIdentifier name.toList = true := fun _ => isIdentifier_of_mem_leastWithConstant
  exact ⟨valid, other_valid, named, other_named, text, other_text,
    (text_eq_iff valid other_valid named other_named).1 (text.trans other_text.symm)⟩

end Expr

end Formulary
