import DotGrid.Proofs.Parser.Exactness

/-!
# Printing trees

`Expr.print` writes a tree as a text of the grammar. A node is put in parentheses if its phrase is looser than the slot
it stands in, and any node may have further pairs of them. Every text that is printed derives its tree
(`Written.derives_print`), so the parser gives the tree back (`parse_print`). The trees that are printed are just those
that the grammar derives (`written_iff`).
-/

namespace DotGrid

variable {p slot : Phrase} {w : List Lexeme} {e : Expr}

/-! ## Operators -/

/-- The symbol of a prefix operator. -/
def UnaryOp.symbol : UnaryOp → Symbol
  | .negate => .minus
  | .toReal => .plus
  | .not => .bang
  | .complement => .tilde

/-- The symbol of an operator between two operands. -/
def Joint.symbol : Joint → Symbol
  | .logical .either => .either
  | .logical .both => .both
  | .binary .bitOr => .bar
  | .binary .bitXor => .caret
  | .binary .bitAnd => .ampersand
  | .binary .equal => .equal
  | .binary .notEqual => .notEqual
  | .binary .less => .less
  | .binary .atMost => .atMost
  | .binary .greater => .greater
  | .binary .atLeast => .atLeast
  | .binary .shiftLeft => .shiftLeft
  | .binary .shiftRight => .shiftRight
  | .binary .unsignedRight => .unsignedRight
  | .binary .add => .plus
  | .binary .sub => .minus
  | .binary .mul => .times
  | .binary .div => .over
  | .binary .remainder => .percent
  | .binary .power => .power

/-- The phrase that an operator between two operands builds. -/
def Joint.phrase : Joint → Phrase
  | .logical .either => .binary 0
  | .logical .both => .binary 1
  | .binary .bitOr => .binary 2
  | .binary .bitXor => .binary 3
  | .binary .bitAnd => .binary 4
  | .binary .equal | .binary .notEqual => .binary 5
  | .binary .less | .binary .atMost | .binary .greater | .binary .atLeast => .binary 6
  | .binary .shiftLeft | .binary .shiftRight | .binary .unsignedRight => .binary 7
  | .binary .add | .binary .sub => .binary 8
  | .binary .mul | .binary .div | .binary .remainder => .binary 9
  | .binary .power => .power

/-- The slot of the left operand. -/
def Joint.left (j : Joint) : Phrase :=
  match j.phrase with
  | .power => .application
  | p => p

/-- The slot of the right operand. -/
def Joint.right (j : Joint) : Phrase :=
  match j.phrase with
  | .power => .unary
  | .binary level => .binary (level + 1)
  | p => p

theorem UnaryOp.symbol_mem (op : UnaryOp) : (op.symbol, op) ∈ signs := by
  cases op <;> decide

theorem Derives.joint {u v : List Lexeme} {a b : Expr} (j : Joint) (ha : Derives j.left u a)
    (hb : Derives j.right v b) : Derives j.phrase (u ++ .symbol j.symbol :: v) (j.build a b) := by
  cases j with
  | logical op => cases op <;> exact .joined (by decide) ha hb
  | binary op =>
    cases op
    case power => exact .power ha hb
    all_goals exact .joined (by decide) ha hb

/-! ## The printer -/

/-- Puts pairs of parentheses around a text. -/
def parenthesized : Nat → List Lexeme → List Lexeme
  | 0, w => w
  | n + 1, w => .symbol .opening :: (parenthesized n w ++ [.symbol .closing])

/-- The phrase of a node. -/
def Expr.phrase : Expr → Phrase
  | .unary _ _ => .unary
  | .binary op _ _ => (Joint.binary op).phrase
  | .logical op _ _ => (Joint.logical op).phrase
  | .conditional _ _ _ => .conditional
  | .call _ _ => .application
  | _ => .primary

/-- A choice of pairs of parentheses for every node; nodes are given by their path from the root. -/
abbrev Extra := List Nat → Nat

/-- The choice for the nodes of one part of a tree. -/
def Extra.part (extra : Extra) (i : Nat) : Extra := fun path => extra (i :: path)

namespace Expr

mutual

/-- The text of a tree in a slot: with parentheses where the slot asks for them, and with all extra ones. -/
def print (slot : Phrase) (extra : Extra) (e : Expr) : List Lexeme :=
  parenthesized ((if slot.rank < e.phrase.rank then 1 else 0) + extra []) <|
    match e with
    | .number (.real value) => [.number value]
    | .name ident => [.name ident]
    | .unary op a => .symbol op.symbol :: print .unary (extra.part 0) a
    | .binary op a b =>
      print (Joint.binary op).left (extra.part 0) a ++ .symbol (Joint.binary op).symbol ::
        print (Joint.binary op).right (extra.part 1) b
    | .logical op a b =>
      print (Joint.logical op).left (extra.part 0) a ++ .symbol (Joint.logical op).symbol ::
        print (Joint.logical op).right (extra.part 1) b
    | .conditional a b c =>
      print (.binary 0) (extra.part 0) a ++ .symbol .question ::
        (print .conditional (extra.part 1) b ++ .symbol .colon :: print .conditional (extra.part 2) c)
    | .call f args =>
      print .application (extra.part 0) f ++ .symbol .opening ::
        (commaSeparated (printArgs extra 1 args) ++ [.symbol .closing])
    | _ => []

/-- The texts of the arguments of a call, the first of which is a given part of it. -/
def printArgs (extra : Extra) (i : Nat) : List Expr → List (List Lexeme)
  | [] => []
  | a :: args => print .conditional (extra.part i) a :: printArgs extra (i + 1) args

end

end Expr

/-- Trees of the language: every number is a literal, and every operator has a symbol. -/
inductive Written : Expr → Prop
  | number (value : Double) : Written (.number (.real value))
  | name (ident : String) : Written (.name ident)
  | unary (op : UnaryOp) {a : Expr} : Written a → Written (.unary op a)
  | binary (op : BinaryOp) {a b : Expr} : Written a → Written b → Written (.binary op a b)
  | logical (op : LogicalOp) {a b : Expr} : Written a → Written b → Written (.logical op a b)
  | conditional {a b c : Expr} : Written a → Written b → Written c → Written (.conditional a b c)
  | call {f : Expr} {args : List Expr} : Written f → (∀ a ∈ args, Written a) → Written (.call f args)

/-! ## What is printed derives its tree -/

/-- Enough parentheses make a phrase fit a slot. -/
theorem Derives.parenthesized (h : Derives p w e) : ∀ {n : Nat} {slot : Phrase}, (slot.rank < p.rank → 0 < n) →
    Derives slot (DotGrid.parenthesized n w) e
  | 0, _, hn => h.loosen (Nat.le_of_not_lt fun hlt => absurd (hn hlt) (Nat.lt_irrefl 0))
  | _ + 1, slot, _ => (h.parenthesized fun hlt => absurd p.rank_le (Nat.not_le.mpr hlt)).group.loosen slot.rank_pos

/-- The text of a node fits its slot if its parts do. -/
theorem Derives.placed (h : Derives e.phrase w e) (slot : Phrase) (n : Nat) :
    Derives slot (DotGrid.parenthesized ((if slot.rank < e.phrase.rank then 1 else 0) + n) w) e := by
  refine h.parenthesized fun hlt => ?_
  rw [if_pos hlt]
  omega

theorem printArgs_derives {args : List Expr} (h : ∀ a ∈ args, ∀ slot extra, Derives slot (a.print slot extra) a)
    (extra : Extra) (i : Nat) :
    ∃ pairs : List (List Lexeme × Expr), pairs.map (·.1) = Expr.printArgs extra i args ∧ pairs.map (·.2) = args ∧
      ∀ a ∈ pairs, Derives .conditional a.1 a.2 := by
  induction args generalizing i with
  | nil => exact ⟨[], rfl, rfl, nofun⟩
  | cons a args ih =>
    obtain ⟨pairs, htexts, hargs, hpairs⟩ := ih (fun a ha => h a (List.mem_cons_of_mem _ ha)) (i + 1)
    refine ⟨(a.print .conditional (extra.part i), a) :: pairs, ?_, ?_, List.forall_mem_cons.mpr ⟨?_, hpairs⟩⟩
    · rw [List.map_cons, htexts, Expr.printArgs]
    · rw [List.map_cons, hargs]
    · exact h a List.mem_cons_self _ _

/-- A tree derives from its text, whatever the slot and the extra parentheses. -/
theorem Written.derives_print (h : Written e) : ∀ slot extra, Derives slot (e.print slot extra) e := by
  induction h with
  | number value =>
    intro slot extra
    rw [Expr.print]
    refine Derives.placed ?_ slot _
    exact .number value
  | name ident =>
    intro slot extra
    rw [Expr.print]
    refine Derives.placed ?_ slot _
    exact .name ident
  | unary op _ ih =>
    intro slot extra
    rw [Expr.print]
    refine Derives.placed ?_ slot _
    exact .signed op.symbol_mem (ih _ _)
  | binary op _ _ iha ihb =>
    intro slot extra
    rw [Expr.print]
    refine Derives.placed ?_ slot _
    exact .joint (.binary op) (iha _ _) (ihb _ _)
  | logical op _ _ iha ihb =>
    intro slot extra
    rw [Expr.print]
    refine Derives.placed ?_ slot _
    exact .joint (.logical op) (iha _ _) (ihb _ _)
  | conditional _ _ _ iha ihb ihc =>
    intro slot extra
    rw [Expr.print]
    refine Derives.placed ?_ slot _
    exact .choice (iha _ _) (ihb _ _) (ihc _ _)
  | @call f args _ _ ihf ihargs =>
    intro slot extra
    obtain ⟨pairs, htexts, hargs, hpairs⟩ := printArgs_derives ihargs extra 1
    have hcall := Derives.call pairs (ihf .application (extra.part 0)) hpairs
    rw [htexts, hargs] at hcall
    rw [Expr.print]
    refine Derives.placed ?_ slot _
    exact hcall

/-- Only trees of the language derive. -/
theorem Derives.written (h : Derives p w e) : Written e := by
  induction h with
  | tighter _ _ ih => exact ih
  | number value => exact .number value
  | name ident => exact .name ident
  | group _ ih => exact ih
  | call args _ _ ihf ihargs =>
    refine .call ihf fun a ha => ?_
    obtain ⟨pair, hpair, rfl⟩ := List.mem_map.mp ha
    exact ihargs pair hpair
  | power _ _ iha ihb => exact .binary .power iha ihb
  | signed _ _ ih => exact .unary _ ih
  | @joined _ _ joint _ _ _ _ _ _ _ iha ihb =>
    cases joint with
    | binary op => exact .binary op iha ihb
    | logical op => exact .logical op iha ihb
  | choice _ _ _ iha ihb ihc => exact .conditional iha ihb ihc

/-- The trees of the language are those that some text has. -/
theorem written_iff : Written e ↔ ∃ w, Derives .conditional w e :=
  ⟨fun h => ⟨_, h.derives_print .conditional fun _ => 0⟩, fun ⟨_, h⟩ => h.written⟩

/-! ## Parsing what is printed -/

/-- **Parsing undoes printing.** The tokens of a printed tree are read as that tree, unless they reach the limit, which
they do not if it is high enough. -/
theorem parse_print (limit endOffset : Nat) {ts : List Token} {e : Expr} (extra : Extra) (he : Written e)
    (hts : lexemes ts = e.print .conditional extra) :
    ((parseAllWithin limit ts).toExcept endOffset ≠ .error .tooDeep →
      (parseAllWithin limit ts).toExcept endOffset = .ok e) ∧
    (16 * (ts.length + 1) ≤ limit → (parseAllWithin limit ts).toExcept endOffset = .ok e) := by
  have hd : Derives .conditional (lexemes ts) e := hts ▸ he.derives_print .conditional extra
  have hok : (parseAllWithin limit ts).toExcept endOffset ≠ .error .tooDeep →
      (parseAllWithin limit ts).toExcept endOffset = .ok e := by
    intro hdeep
    exact toExcept_eq_ok_iff.mpr ⟨[], hd.parseAllWithin_eq (toExcept_ne_tooDeep_iff.mp hdeep)⟩
  exact ⟨hok, fun hl => hok (toExcept_ne_tooDeep_iff.mpr (parseAllWithin_enough hl))⟩

/-- `(-a) ** (b ? c : d)((x)) - (y - z)`: parentheses for a sign under a power, for a choice that is called and for a
difference on the right of another one, and an extra pair around an argument. -/
theorem parse_print_difference :
    let tree : Expr :=
      .binary .sub
        (.binary .power (.unary .negate (.name "a"))
          (.call (.conditional (.name "b") (.name "c") (.name "d")) [.name "x"]))
        (.binary .sub (.name "y") (.name "z"))
    let extra : Extra := fun path => if path = [0, 1, 1] then 1 else 0
    let text : List Lexeme :=
      [.symbol .opening, .symbol .minus, .name "a", .symbol .closing, .symbol .power, .symbol .opening, .name "b",
        .symbol .question, .name "c", .symbol .colon, .name "d", .symbol .closing, .symbol .opening, .symbol .opening,
        .name "x", .symbol .closing, .symbol .closing, .symbol .minus, .symbol .opening, .name "y", .symbol .minus,
        .name "z", .symbol .closing]
    text = tree.print .conditional extra ∧
      (parseAllWithin 60 (text.map fun l => ⟨l, 0⟩)).toExcept 0 = .ok tree := by
  intro tree extra text
  have htext : text = tree.print .conditional extra := rfl
  have hwritten : Written tree := by
    refine .binary _ (.binary _ (.unary _ (.name _)) (.call (.conditional (.name _) (.name _) (.name _)) ?_))
      (.binary _ (.name _) (.name _))
    simp [Written.name]
  exact ⟨htext, (parse_print 60 0 extra hwritten ((lexemes_placed text).trans htext)).1 nofun⟩

end DotGrid
