/-!
The operators of expressions. A program text only gives the eight the language knows, a syntax tree
built by hand may name any other.
-/

namespace Monkey

inductive Operator where
  | bang
  | plus | minus | times | divide
  | less | greater | equal | notEqual
  | other (text : String)
deriving DecidableEq

namespace Operator

def text : Operator → String
  | bang => "!"
  | plus => "+"
  | minus => "-"
  | times => "*"
  | divide => "/"
  | less => "<"
  | greater => ">"
  | equal => "=="
  | notEqual => "!="
  | other text => text

def ofText (text : String) : Operator :=
  if text = "!" then bang
  else if text = "+" then plus
  else if text = "-" then minus
  else if text = "*" then times
  else if text = "/" then divide
  else if text = "<" then less
  else if text = ">" then greater
  else if text = "==" then equal
  else if text = "!=" then notEqual
  else other text

theorem text_ofText (name : String) : (ofText name).text = name := by
  unfold ofText
  repeat' split
  all_goals simp_all [text]

end Operator
end Monkey
