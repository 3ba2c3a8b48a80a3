/-
Bytes as text. Valid UTF-8 is a text; other bytes have a first bad offset, and are still seen as
symbols, where `none` stands for a byte that belongs to no character.
-/

namespace TypedTables.Text.Utf8

/-- A character, or a byte that belongs to none. -/
abbrev Symbol := Option Char

def ofText (s : String) : List Symbol := s.toList.map some

/-- The symbols from offset `i` on; `fuel` bounds their number. -/
def scanFrom (bytes : ByteArray) : (fuel i : Nat) → List Symbol
  | 0, _ => []
  | fuel + 1, i =>
    if i < bytes.size then
      match bytes.utf8DecodeChar? i with
      | some c => some c :: scanFrom bytes fuel (i + c.utf8Size)
      | none => none :: scanFrom bytes fuel (i + 1)
    else []

def symbols (bytes : ByteArray) : List Symbol :=
  match String.fromUTF8? bytes with
  | some s => ofText s
  | none => scanFrom bytes bytes.size 0

def symbolSize : Symbol → Nat
  | some c => c.utf8Size
  | none => 1

def sizeInBytes (symbols : List Symbol) : Nat := symbols.foldl (fun n s => n + symbolSize s) 0

/-- How many bytes stand before the first symbol that is no character. -/
def validSize (symbols : List Symbol) : Nat := sizeInBytes (symbols.takeWhile Option.isSome)

/-- The text of bytes, or the offset of the first byte that belongs to no character. -/
def decode (bytes : ByteArray) : Except Nat String :=
  match String.fromUTF8? bytes with
  | some s => .ok s
  | none => .error (validSize (scanFrom bytes bytes.size 0))

def encode (s : String) : ByteArray := s.toUTF8

theorem decode_encode (s : String) : decode (encode s) = .ok s := by
  simp [decode, encode, String.fromUTF8?, s.isValidUTF8, String.fromUTF8]

theorem symbols_encode (s : String) : symbols (encode s) = ofText s := by
  simp [symbols, encode, String.fromUTF8?, s.isValidUTF8, String.fromUTF8]

end TypedTables.Text.Utf8
