import ArithTokens.Text.Basic

/-!
# UTF-8

A decoder takes octets one at a time.  After a lead octet it waits for a number of further octets,
and the range of the next one is known: overlong forms, surrogates and values above U+10FFFF are
ruled out by the range of the second octet.  An octet out of range ends the part begun, which is
then ill-formed, and is looked at again as a lead octet.  So each ill-formed part is as long as a
beginning of a character can be, and gives one replacement character.

    decode (a ++ b) goes on with `b` from where the decoder is after `a`   (feed_append)
-/

namespace ArithTokens.Utf8

/-! ## Algorithm -/

/-- A character of which some octets are missing: its bits so far, how many octets are missing,
and the range of the next one. -/
structure Begun where
  value : Nat
  missing : Nat
  low : Nat
  high : Nat
deriving DecidableEq

/-- The character begun, if any, and what has been found, the latest first; `none` stands for an
ill-formed part. -/
structure Decoder where
  begun : Option Begun
  found : List (Option Char)
deriving DecidableEq

namespace Decoder

def start : Decoder :=
  ⟨none, []⟩

def lead (found : List (Option Char)) (octet : Nat) : Decoder :=
  if octet < 0x80 then ⟨none, some (Char.ofNat octet) :: found⟩
  else if octet < 0xc2 then ⟨none, none :: found⟩
  else if octet < 0xe0 then ⟨some ⟨octet - 0xc0, 1, 0x80, 0xbf⟩, found⟩
  else if octet = 0xe0 then ⟨some ⟨0, 2, 0xa0, 0xbf⟩, found⟩
  else if octet = 0xed then ⟨some ⟨0xd, 2, 0x80, 0x9f⟩, found⟩
  else if octet < 0xf0 then ⟨some ⟨octet - 0xe0, 2, 0x80, 0xbf⟩, found⟩
  else if octet = 0xf0 then ⟨some ⟨0, 3, 0x90, 0xbf⟩, found⟩
  else if octet < 0xf4 then ⟨some ⟨octet - 0xf0, 3, 0x80, 0xbf⟩, found⟩
  else if octet = 0xf4 then ⟨some ⟨4, 3, 0x80, 0x8f⟩, found⟩
  else ⟨none, none :: found⟩

/-- Takes an octet after the beginning of a character. -/
def extend (found : List (Option Char)) (b : Begun) (octet : Nat) : Decoder :=
  if b.low ≤ octet ∧ octet ≤ b.high then
    let value := b.value * 64 + (octet - 0x80)
    if b.missing = 1 then ⟨none, some (Char.ofNat value) :: found⟩
    else ⟨some ⟨value, b.missing - 1, 0x80, 0xbf⟩, found⟩
  else lead (none :: found) octet

def push (d : Decoder) (octet : UInt8) : Decoder :=
  match d.begun with
  | none => lead d.found octet.toNat
  | some b => extend d.found b octet.toNat

def feed (d : Decoder) (octets : List UInt8) : Decoder :=
  octets.foldl push d

/-- What has been found when no octet follows: a character begun stays unfinished. -/
def finish (d : Decoder) : List (Option Char) :=
  match d.begun with
  | none => d.found.reverse
  | some _ => (none :: d.found).reverse

end Decoder

/-- The characters and ill-formed parts of octets, in order. -/
def decode (octets : List UInt8) : List (Option Char) :=
  (Decoder.start.feed octets).finish

/-- The character in the place of an ill-formed part. -/
def replacement : Char :=
  '\ufffd'

/-- The text of octets, with ill-formed parts replaced. -/
def textOf (octets : List UInt8) : Text :=
  (decode octets).map (·.getD replacement)

/-- Whether octets have no ill-formed part. -/
def isWellFormed (octets : List UInt8) : Bool :=
  (decode octets).all Option.isSome

/-! ## Lemmas -/

theorem Decoder.feed_append (d : Decoder) (a b : List UInt8) :
    d.feed (a ++ b) = (d.feed a).feed b :=
  List.foldl_append

end ArithTokens.Utf8
