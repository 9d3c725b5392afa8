import Moonbox.Lib.Quotations

/-!
# Dialects

How the dialects print attributes and aliases, and how the databases read identifiers. Texts are
lists of characters.
-/

namespace Moonbox.SqlBuilder

open Quotation

/-! ### `MbDialect` -/

structure MbDialect where
  quote : List Char → List Char
  maybeQuote : List Char → List Char
  /-- The qualifier and the name of an attribute. -/
  getAttributeName : Option (List Char) → List Char → List Char

def qualifierPrefix : Option (List Char) → List Char
  | none => []
  | some qualifier => qualifier ++ ['.']

/-- A dialect with the trait's own `getAttributeName`. -/
def MbDialect.ofQuote (quote maybeQuote : List Char → List Char) : MbDialect where
  quote := quote
  maybeQuote := maybeQuote
  getAttributeName qualifier name := qualifierPrefix qualifier ++ quote name

def mbMySQLDialect : MbDialect :=
  .ofQuote (fun name => ['`'] ++ replace '`' ['`', '`'] name ++ ['`']) fun name => name

def mbOracleDialect : MbDialect :=
  .ofQuote (fun name => ['"'] ++ replace '`' ['"'] name ++ ['"']) fun name => name

def mbSqlServerDialect : MbDialect :=
  .ofQuote (fun name => ['\''] ++ replace '`' [] name ++ ['\'']) fun name => name

def mbPostgresDialect : MbDialect :=
  .ofQuote (fun name => ['"'] ++ replace '`' ['"'] name ++ ['"']) fun name => name

def mbPrestoDialect : MbDialect :=
  .ofQuote (fun name => ['"'] ++ replace '`' [] name ++ ['"']) fun name => name

namespace ClickHouse

def quote (name : List Char) : List Char := ['`'] ++ replace '`' ['`', '`'] name ++ ['`']

def maybeQuote (name : List Char) : List Char :=
  if name.contains '#' || name.contains '(' then quote name else name

end ClickHouse

def mbClickHouseDialect : MbDialect where
  quote := ClickHouse.quote
  maybeQuote := ClickHouse.maybeQuote
  getAttributeName _ name := ClickHouse.maybeQuote name

inductive Dialect
  | mySQL
  | oracle
  | sqlServer
  | postgres
  | presto
  | clickHouse

def Dialect.mbDialect : Dialect → MbDialect
  | .mySQL => mbMySQLDialect
  | .oracle => mbOracleDialect
  | .sqlServer => mbSqlServerDialect
  | .postgres => mbPostgresDialect
  | .presto => mbPrestoDialect
  | .clickHouse => mbClickHouseDialect

/-- What `expressionToSQL` prints of an alias after its child and `AS`. -/
def MbDialect.aliasName (dialect : MbDialect) (qualifier : Option (List Char))
    (name : List Char) : List Char :=
  qualifierPrefix qualifier ++ dialect.quote name

/-! ### Identifiers of the databases -/

/-- The first characters that fit into so many bytes of UTF-8. -/
def clip : Nat → List Char → List Char
  | _, [] => []
  | size, c :: text => if c.utf8Size ≤ size then c :: clip (size - c.utf8Size) text else []

def utf8Length : List Char → Nat
  | [] => 0
  | c :: text => c.utf8Size + utf8Length text

/-- A quoted identifier: how it is quoted, which names may be quoted, and what is kept of them. -/
structure Identifiers where
  quotation : Quotation
  permitted : List Char → Bool
  kept : List Char → List Char

/-- The backslash escapes of ClickHouse. -/
def ClickHouse.escape : List Char → List Char × Nat
  | 'x' :: h :: l :: _ =>
    let digit (c : Char) : Nat :=
      if c.isDigit then c.toNat - '0'.toNat else c.toLower.toNat - 'a'.toNat + 10
    ([Char.ofNat (16 * digit h + digit l)], 3)
  | 'b' :: _ => (['\x08'], 1)
  | 'f' :: _ => (['\x0c'], 1)
  | 'r' :: _ => (['\r'], 1)
  | 'n' :: _ => (['\n'], 1)
  | 't' :: _ => (['\t'], 1)
  | '0' :: _ => (['\x00'], 1)
  | 'a' :: _ => (['\x07'], 1)
  | 'v' :: _ => (['\x0b'], 1)
  | c :: _ => ([c], 1)
  | [] => ([], 1)

def Dialect.identifiers : Dialect → Identifiers
  -- the basic plane without NUL
  | .mySQL => ⟨⟨'`', true, none⟩, fun name => name.all fun c => 0 < c.toNat && c.toNat < 0x10000,
      fun name => name⟩
  | .oracle => ⟨⟨'"', false, none⟩, fun name => name.all fun c => 0 < c.toNat, fun name => name⟩
  | .sqlServer => ⟨⟨'"', true, none⟩, fun _ => true, fun name => name⟩
  -- what does not fit is cut off
  | .postgres => ⟨⟨'"', true, none⟩, fun name => name.all fun c => 0 < c.toNat, clip 63⟩
  | .presto => ⟨⟨'"', true, none⟩, fun _ => true, fun name => name⟩
  | .clickHouse => ⟨⟨'`', true, some ClickHouse.escape⟩, fun _ => true, fun name => name⟩

def isLetter (c : Char) : Bool := c.isAlpha || c = '_'

def isWord (c : Char) : Bool := c.isAlphanum || c = '_'

/-- A name that needs no quotes: `[a-zA-Z_][0-9a-zA-Z_]*` -/
def isRegular : List Char → Bool
  | [] => false
  | c :: name => isLetter c && name.all isWord

/-- The identifier at the start of a text and what is after it. There is none if a literal, a
number or a keyword is there. What the other databases make of an identifier without quotes is
left out, their dialects print none. -/
def Dialect.identifier (keyword : List Char → Bool) (d : Dialect) :
    List Char → Option (List Char × List Char)
  | [] => none
  | c :: text =>
    if c = d.identifiers.quotation.quote then do
      let (name, rest) ← d.identifiers.quotation.read 0 text
      if name ≠ [] ∧ d.identifiers.permitted name then some (d.identifiers.kept name, rest)
      else none
    else
      match d with
      | .clickHouse =>
        let word := (c :: text).takeWhile isWord
        if isRegular word ∧ keyword word = false then
          some (word, (c :: text).dropWhile isWord)
        else none
      | _ => none

end Moonbox.SqlBuilder
