import Monkey.ValueKind

/-!
What a hash files its entries under: the kind of the key and a 64-bit number. For integers and truth
values the number tells the key exactly; for strings it is a digest of their bytes, and strings of
one digest are one key.
-/

namespace Monkey

/-- The 64-bit FNV-1a digest. Each byte is mixed in and the whole is then multiplied. -/
def fnv1a (bytes : List UInt8) : UInt64 :=
  bytes.foldl mix 0xcbf29ce484222325
where
  mix (digest : UInt64) (byte : UInt8) : UInt64 := (digest ^^^ byte.toUInt64) * 0x100000001b3

structure HashKey where
  kind : ValueKind
  number : UInt64
deriving DecidableEq

namespace HashKey

def ofInteger (value : Int) : HashKey := ⟨.integer, .ofInt value⟩

def ofBoolean (value : Bool) : HashKey := ⟨.boolean, if value then 1 else 0⟩

def ofString (text : String) : HashKey := ⟨.string, fnv1a text.toUTF8.data.toList⟩

end HashKey
end Monkey
