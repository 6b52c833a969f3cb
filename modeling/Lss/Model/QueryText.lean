import Lss.Library.Table
import Lss.Library.Utf8Decoding

/-!
# The parameters of a request

What stands behind the question mark of a request is cut at `&` into pairs and at `=` into a key
and a value, and both are decoded byte by byte.
-/

set_option autoImplicit false

namespace Lss.Model.QueryText

open Lss.Library Lss.Library.Utf8

/-- A digit to the base sixteen. -/
def hexValue (c : Char) : Option ℕ :=
  if '0' ≤ c ∧ c ≤ '9' then some (c.toNat - 48)
  else if 'a' ≤ c ∧ c ≤ 'f' then some (c.toNat - 87)
  else if 'A' ≤ c ∧ c ≤ 'F' then some (c.toNat - 55)
  else none

/-- A byte as the language reads it to the base sixteen: there may be a plus in front. -/
def fromStrRadix (text : List Char) : Option UInt8 :=
  let digits := if text.head? = some '+' then text.tail else text
  if digits = [] then none
  else do
    let ds ← digits.mapM hexValue
    let n := ds.foldl (fun v d => v * 16 + d) 0
    if n < 2 ^ 8 then some (UInt8.ofNat n) else none

/-- The bytes behind the first so many, decoded.
SOURCE: lss-collector/src/query.rs:31-52 -/
def decodeBytes : ℕ → List UInt8 → List UInt8
  | _, [] => []
  | k + 1, _ :: rest => decodeBytes k rest
  | 0, b :: rest =>
    if b = byteOf '%' ∧ 2 < (b :: rest).length then
      match (fromUtf8 (rest.take 2)).bind fromStrRadix with
      | some byte => byte :: decodeBytes 2 rest
      | none => byteOf '%' :: decodeBytes 0 rest
    else if b = byteOf '+' then byteOf ' ' :: decodeBytes 0 rest
    else b :: decodeBytes 0 rest

/-- SOURCE: lss-collector/src/query.rs:27-54 -/
def percentDecode (s : List Char) : List Char := fromUtf8Lossy (decodeBytes 0 (bytes s))

/-- A pair as it stands in the query, with a key that is not empty.
SOURCE: lss-collector/src/query.rs:20-23 -/
def readPair (pair : List Char) : Option (List Char × List Char) :=
  let k := pair.takeWhile (· ≠ '=')
  let v := (pair.dropWhile (· ≠ '=')).tail
  if k = [] then none else some (percentDecode k, percentDecode v)

/-- The keys with their values, each key once.
SOURCE: lss-collector/src/query.rs:15-25 -/
def parseQuery (url : List Char) : List (List Char × List Char) :=
  let query := (url.dropWhile (· ≠ '?')).tail
  ((query.splitOn '&').filterMap readPair).foldl (Table.put Prod.fst) []

end Lss.Model.QueryText
