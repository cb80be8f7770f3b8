import Mathlib
import Logo.Proofs.Calls
import Logo.Proofs.Known

/-!
# Writing programs

How a program is written down. The marks of a program are what its writing consists of, in order:
reserved words, operators, brackets, numbers and texts are written as they are; names stand at the
place that the program records for them; a sum begins with a minus, or else with nothing or a plus;
and a variable that is to be set is written as a word or between quotes.

`Written` tells which tokens write some marks. `Program.lexemes` is one way of writing a program,
without plus signs and with the variables that are set between quotes.

What the names of a program may be depends on which procedures are known where they stand:
`Program.Fits`.
-/

namespace Logo

/-- A part of the writing of a program. -/
inductive Mark where
  | lexeme (l : Lexeme)
  /-- The sign of a sum. -/
  | sign (negated : Bool)
  /-- A variable that is read. -/
  | variable (name : Name)
  /-- A procedure that is called with so many inputs. -/
  | callee (name : Name) (inputs : Nat)
  /-- A variable that is set. -/
  | target (name : Name)
  deriving DecidableEq, Repr

namespace Mark

/-- The mark of a reserved word. -/
def keyword (k : Keyword) : Mark := .lexeme (.keyword k)

/-- `Stands mark ts`: the tokens `ts` write the mark. -/
inductive Stands : Mark → List Token → Prop
  | lexeme {l : Lexeme} {p : Position} : Stands (.lexeme l) [⟨l, p⟩]
  | minus {p : Position} : Stands (.sign true) [⟨.addOp .minus, p⟩]
  | unsigned : Stands (.sign false) []
  | plus {p : Position} : Stands (.sign false) [⟨.addOp .plus, p⟩]
  | variable {name : Name} : Stands (.variable name) [⟨.word name.text, name.position⟩]
  | callee {name : Name} {inputs : Nat} :
      Stands (.callee name inputs) [⟨.word name.text, name.position⟩]
  | word {name : Name} : Stands (.target name) [⟨.word name.text, name.position⟩]
  | quoted {name : Name} : Stands (.target name) [⟨.quoted name.text, name.position⟩]

/-- Whether a name is what it should be where procedures of this signature are known: a variable
is no procedure, and a procedure that is called takes the inputs that it is given. -/
def Fits (sig : Signature) : Mark → Prop
  | .variable name => sig name.text = none
  | .target name => sig name.text = none
  | .callee name inputs => sig name.text = some inputs
  | _ => True

end Mark

/-- `Written marks ts`: the tokens `ts`, and no others, write the marks one after the other. -/
inductive Written : List Mark → List Token → Prop
  | nil : Written [] []
  | cons {mark : Mark} {marks : List Mark} {first rest : List Token} :
      mark.Stands first → Written marks rest → Written (mark :: marks) (first ++ rest)

/-! ## The marks of a program -/

mutual

/-- How an operand of a product is written. -/
def Factor.marks : Factor → List Mark
  | .number n => [.lexeme (.number n)]
  | .variable name => [.variable name]
  | .call c => c.marks
  | .grouped e => .lexeme .parenOpen :: (e.marks ++ [.lexeme .parenClose])

/-- How a call is written. -/
def Call.marks : Call → List Mark
  | .reporter what => [.keyword what.keyword]
  | .procedure name arguments => .callee name arguments.length :: marksOfAll arguments

/-- How some expressions are written one after the other. -/
def marksOfAll : List Expr → List Mark
  | [] => []
  | e :: es => e.marks ++ marksOfAll es

/-- How a product is written. -/
def Term.marks : Term → List Mark
  | .single f => f.marks
  | .chain f op rest => f.marks ++ .lexeme (.mulOp op) :: rest.marks

/-- How a sum is written. -/
def Expr.marks : Expr → List Mark
  | .single negated t => .sign negated :: t.marks
  | .chain negated t op rest => .sign negated :: (t.marks ++ .lexeme (.addOp op) :: rest.marks)

end

mutual

/-- How an operand of a condition is written. -/
def Clause.marks : Clause → List Mark
  | .constant true => [.keyword .truth]
  | .constant false => [.keyword .falsehood]
  | .negation c => .keyword .not :: c.marks
  | .braced c => .lexeme .braceOpen :: (c.marks ++ [.lexeme .braceClose])
  | .compared left op right => left.marks ++ .lexeme (.comparison op) :: right.marks

/-- How a condition is written. -/
def Condition.marks : Condition → List Mark
  | .single c => c.marks
  | .chain c op rest => c.marks ++ .keyword op.keyword :: rest.marks

end

/-- How a command that sets a variable begins. -/
def Reach.opening : Reach → Keyword → List Mark
  | .shared, k => [.keyword k]
  | .own, k => [.keyword .localTo, .keyword k]

/-- What a command is written with before its operands. -/
def Command.opening : Command → List Mark
  | .forward _ => [.keyword .forward]
  | .back _ => [.keyword .back]
  | .right _ => [.keyword .right]
  | .left _ => [.keyword .left]
  | .moveBy _ _ => [.keyword .move]
  | .moveTo _ _ => [.keyword .setXY]
  | .setHeading _ => [.keyword .head]
  | .home => [.keyword .home]
  | .clearScreen => [.keyword .clearScreen]
  | .penUp => [.keyword .penUp]
  | .penDown => [.keyword .penDown]
  | .setColor _ _ _ => [.keyword .setColor]
  | .printText text => [.keyword .print, .lexeme (.quoted text)]
  | .printNumber _ => [.keyword .print]
  | .scan reach target => reach.opening .scan ++ [.target target]
  | .make reach target _ => reach.opening .make ++ [.target target]
  | .sleep _ => [.keyword .sleep]

/-- How a command is written. -/
def Command.marks (c : Command) : List Mark := c.opening ++ marksOfAll c.operands

mutual

/-- How a statement is written. -/
def Statement.marks : Statement → List Mark
  | .command c => c.marks
  | .call c => c.marks
  | .output value => .keyword .output :: value.marks
  | .ifTrue condition body =>
    .keyword .ifTrue :: (condition.marks ++ .lexeme .bracketOpen :: blockMarks body .bracketClose)
  | .loop count body =>
    .keyword .loop :: (count.marks ++ .lexeme .bracketOpen :: blockMarks body .bracketClose)

/-- How some statements are written, with the lexeme that ends them. -/
def blockMarks : List Statement → Lexeme → List Mark
  | [], close => [.lexeme close]
  | s :: rest, close => s.marks ++ blockMarks rest close

end

/-- How a part of a program is written. -/
def Item.marks : Item → List Mark
  | .definition p =>
    .keyword .define :: .lexeme (.word p.name) :: (p.parameters.map (.lexeme ∘ .word) ++
      blockMarks p.body (.keyword .endDefine))
  | .statement s => s.marks

/-- How a program is written. -/
def Program.marks (program : Program) : List Mark := program.flatMap Item.marks

/-! ## Names -/

/-- The parameters of a procedure are new names, and the names in its body fit where the procedure
is known already. -/
structure Procedure.Fits (known : Procedures) (p : Procedure) : Prop where
  parameters : ∀ name ∈ p.parameters, name ≠ p.name ∧ known.signature name = none
  body : ∀ mark ∈ blockMarks p.body (.keyword .endDefine), mark.Fits (known.define p).signature

/-- The names in each part of a program fit where the procedures are known that were known before
the program, and those that are defined earlier in it. -/
def Program.Fits : Procedures → Program → Prop
  | _, [] => True
  | known, .definition p :: rest => p.Fits known ∧ Fits (known.define p) rest
  | known, .statement s :: rest =>
    (∀ mark ∈ s.marks, mark.Fits known.signature) ∧ Fits known rest

/-! ## One way of writing -/

/-- The lexemes that write a mark: no plus sign, and quotes around a variable that is set. -/
def Mark.lexemes : Mark → List Lexeme
  | .lexeme l => [l]
  | .sign true => [.addOp .minus]
  | .sign false => []
  | .variable name => [.word name.text]
  | .callee name _ => [.word name.text]
  | .target name => [.quoted name.text]

/-- The lexemes that write a program. -/
def Program.lexemes (program : Program) : List Lexeme := program.marks.flatMap Mark.lexemes

/-! ## Lemmas -/

namespace Written

variable {marks marks' : List Mark} {ts ts' : List Token}

theorem single {mark : Mark} (stands : mark.Stands ts) : Written [mark] ts := by
  have := cons stands nil
  rwa [List.append_nil] at this

theorem append (first : Written marks ts) (second : Written marks' ts') :
    Written (marks ++ marks') (ts ++ ts') := by
  induction first with
  | nil => exact second
  | cons stands _ ih =>
    rw [List.append_assoc]
    exact cons stands ih

end Written

end Logo
