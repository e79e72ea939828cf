import LinProg.Problem.Error
import LinProg.Problem.Sense
import LinProg.Text.Character

/-!
Senses and column kinds read from their codes and symbols.
-/

namespace LinProg

variable {α : Type}

namespace Sense

def ofCode (c : Char) : Except (ProblemError α) Sense :=
  match ofCode? c with
  | some s => .ok s
  | none => .error (.unknownSense (.singleton c))

def parse (text : String) : Except (ProblemError α) Sense :=
  match Text.trim text.toList with
  | ['<', '='] => .ok .lessEq
  | ['>', '='] => .ok .greaterEq
  | ['='] | ['=', '='] => .ok .equal
  | [c] => ofCode c
  | _ => .error (.unknownSense text)

end Sense

namespace ColumnKind

def ofCode (c : Char) : Except (ProblemError α) ColumnKind :=
  match ofCode? c with
  | some k => .ok k
  | none => .error (.unknownKind (Text.quotedChar c))

def parse (text : String) : Except (ProblemError α) ColumnKind :=
  match Text.trim text.toList with
  | [c] => ofCode c
  | _ => .error (.unknownKind (Text.quotedText text))

end ColumnKind

end LinProg
