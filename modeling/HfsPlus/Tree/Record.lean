import HfsPlus.Error

/-!
# Keyed records

Every record of a leaf or an index node begins with a key behind its 16-bit length. What follows is
the data of a leaf record, or the number of a node below.
-/

namespace HfsPlus

/-- A record taken apart into its key and what follows. -/
structure KeyedRecord where
  /-- The bytes of the key, without the length in front. -/
  key : Bytes
  /-- The bytes behind the key. -/
  data : Bytes
deriving DecidableEq, Repr

namespace KeyedRecord

/-- Takes a record apart. -/
def parse (record : Bytes) : Except Error KeyedRecord := do
  let .ok (keyLength, rest) := Format.uint16.decode record
    | throw (.corrupted .missingKeyLength)
  let key := rest.take keyLength.toNat
  if key.length < keyLength.toNat then
    throw (.corrupted .keyOverrun)
  return { key, data := rest.drop keyLength.toNat }

/-- The node below that an index record leads to. -/
def child (r : KeyedRecord) : Except Error UInt32 :=
  match Format.uint32.decode r.data with
  | .ok (node, _) => .ok node
  | .error _ => .error (.corrupted .missingChild)

end KeyedRecord

end HfsPlus
