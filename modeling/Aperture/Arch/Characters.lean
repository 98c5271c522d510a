import Aperture.Arch.Keyboard

/-!
# Characters

`read_char` takes a scancode from the keyboard buffer and looks up its character. Scancodes without
one, among them those of keys that are released, are taken from the buffer all the same.
-/

namespace Aperture.Arch

open Machine

/-- The character of a scancode. -/
def charOf (scancode : UInt8) : Option Char :=
  match scancode with
  | 0x01 => some '\x1b'
  | 0x0E => some '\x08'
  | 0x1C => some '\n'
  | 0x39 => some ' '
  | 0x02 => some '1'
  | 0x03 => some '2'
  | 0x04 => some '3'
  | 0x05 => some '4'
  | 0x06 => some '5'
  | 0x07 => some '6'
  | 0x08 => some '7'
  | 0x09 => some '8'
  | 0x0A => some '9'
  | 0x0B => some '0'
  | 0x10 => some 'q'
  | 0x11 => some 'w'
  | 0x12 => some 'e'
  | 0x13 => some 'r'
  | 0x14 => some 't'
  | 0x15 => some 'y'
  | 0x16 => some 'u'
  | 0x17 => some 'i'
  | 0x18 => some 'o'
  | 0x19 => some 'p'
  | 0x1E => some 'a'
  | 0x1F => some 's'
  | 0x20 => some 'd'
  | 0x21 => some 'f'
  | 0x22 => some 'g'
  | 0x23 => some 'h'
  | 0x24 => some 'j'
  | 0x25 => some 'k'
  | 0x26 => some 'l'
  | 0x2C => some 'z'
  | 0x2D => some 'x'
  | 0x2E => some 'c'
  | 0x2F => some 'v'
  | 0x30 => some 'b'
  | 0x31 => some 'n'
  | 0x32 => some 'm'
  | _ => none

/-- `read_char`. -/
def Keyboard.readChar (keyboard : Keyboard) : Except Panic (Option Char × Keyboard) := do
  let (scancode, keyboard) ← keyboard.readScancode
  match scancode with
  | none => return (none, keyboard)
  | some scancode => return (charOf scancode, keyboard)

end Aperture.Arch
