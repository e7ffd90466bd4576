/-!
The functions every program can use without defining them.
-/

namespace Monkey

inductive Builtin where
  | len | push | puts | first | last | rest
deriving DecidableEq

namespace Builtin

def name : Builtin → String
  | len => "len"
  | push => "push"
  | puts => "puts"
  | first => "first"
  | last => "last"
  | rest => "rest"

def all : List Builtin := [len, push, puts, first, last, rest]

def named? (name : String) : Option Builtin := all.find? (·.name = name)

theorem named?_name (builtin : Builtin) : named? builtin.name = some builtin := by
  cases builtin <;> rfl

end Builtin
end Monkey
