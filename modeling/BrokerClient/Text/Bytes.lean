import BrokerClient.Text.Quoted

/-!
# Bytes

Bytes that stand where a text is expected: the text that they spell, if they spell one, and
the text that they are written as in a message.
-/
namespace BrokerClient.Text

/-- The text that bytes spell, if they do. -/
def ofBytes? (data : List UInt8) : Option String := String.fromUTF8? ⟨data.toArray⟩

/-- A byte between quotes. -/
def quoteByte (quote : Char) (byte : UInt8) : List Char :=
  if byte < 0x80 then quoteChar quote (Char.ofNat byte.toNat)
  else '\\' :: 'x' :: hexDigits 2 byte.toNat

/-- Bytes between quotes. -/
def quotedBytes (data : List UInt8) : String :=
  let quote := quoteFor (data.map fun byte => Char.ofNat byte.toNat)
  String.ofList ('b' :: quote :: data.flatMap (quoteByte quote) ++ [quote])

end BrokerClient.Text
