import Chip8.Item

/-!
# Chip8.Fault

The causes for which a call is refused, each with the values that its message
shows.  A program that the machine runs never meets one of them, as far as the
machine was not tampered with from outside; they answer calls that ask for
what does not exist.
-/

namespace Chip8

/-- Why a call is refused. -/
inductive Fault
  /-- The item that is displayed like this is not an operation. -/
  | notOperation (display : String)
  /-- A number has too many digits to be displayed. -/
  | numberTooLong
  /-- The opcode does not use a field that has a number in it. -/
  | unusedOperand (op : Opcode) (field : Field)
  /-- The number is not one that the field has room for. -/
  | operandRange (op : Opcode) (field : Field) (value : Int)
  /-- A value of this kind stands where a number is to be compared. -/
  | operandNotNumber (kind : String)
  /-- Assembly text is asked for with a text in the place of a number. -/
  | digitsOfText
  /-- Assembly text is asked for with a value of this kind in the place of a
  number. -/
  | digitsOf (kind : String)
  /-- Assembly text is asked for under a name that no opcode has. -/
  | unknownOpcode (name : String)
  /-- Assembly text is asked for something that has no opcode at all. -/
  | noOpcode (item : Item)
  /-- A memory or a screen is to have a negative size. -/
  | negativeSize
  /-- A size is larger than places can be counted. -/
  | sizeTooLarge
  /-- A buffer has more bytes than can be counted. -/
  | bufferTooLong
  /-- There is no room for something of this size. -/
  | noRoom
  /-- There is no byte at this address. -/
  | outsideMemory (address : Int)
  /-- The value does not fit in a byte of memory. -/
  | notByte (value : Int)
  /-- Some value of a block does not fit in a byte of memory. -/
  | blockNotBytes
  /-- The call stack is full. -/
  | stackOverflow
  /-- The call stack is empty. -/
  | stackUnderflow
  /-- A call cannot be made, because a value of this kind was given for the number
  of calls that may be under way. -/
  | limitNotNumber (kind : String)
  /-- The keypad has no such key. -/
  | noSuchKey (index : Int)
  /-- A row of a sprite is not a byte. -/
  | spriteRow (value : Int)
  /-- The screen has no pixels in one of its directions. -/
  | emptySide
  /-- There is no such register. -/
  | noSuchRegister (index : Int)
  /-- There is no such place in the register file. -/
  | registerIndex
  /-- The number of a place in the register file is larger than places can be
  counted. -/
  | registerIndexTooLarge
  /-- The value does not fit in a register. -/
  | registerValue
  /-- The program reaches past the end of memory. -/
  | programTooLong (size : Nat) (start : Int)
  /-- The number is larger than a word. -/
  | wordTooLarge
  /-- The number is negative, and words are not. -/
  | wordNegative
  deriving DecidableEq, Repr

/-- The message of a refused call. -/
def Fault.message : Fault → String
  | notOperation display => "Not an operation: " ++ display
  | numberTooLong =>
    "Exceeds the limit (" ++ toString maxDigits ++ " digits) for integer string conversion; "
      ++ "use sys.set_int_max_str_digits() to increase the limit"
  | unusedOperand op field => op.name ++ " does not take a '" ++ field.name ++ "' operand"
  | operandRange op field value =>
    "Operand '" ++ field.name ++ "' of " ++ op.name ++ " is out of range: 0x" ++ hex 0 value
  | operandNotNumber kind =>
    "'<=' not supported between instances of 'int' and '" ++ kind ++ "'"
  | digitsOfText => "Unknown format code 'x' for object of type 'str'"
  | digitsOf kind => "unsupported format string passed to " ++ kind ++ ".__format__"
  | unknownOpcode name => quoted name
  | noOpcode item => "'" ++ item.kind ++ "' object has no attribute 'op'"
  | negativeSize => "negative count"
  | sizeTooLarge | registerIndexTooLarge => "cannot fit 'int' into an index-sized integer"
  | bufferTooLong => "repeated bytes are too long"
  | noRoom => ""
  | outsideMemory address => "Address 0x" ++ hex 0 address ++ " is outside memory"
  | notByte value => "Value 0x" ++ hex 0 value ++ " does not fit in a byte"
  | blockNotBytes => "Block contains values that do not fit in a byte"
  | stackOverflow => "Stack overflow"
  | stackUnderflow => "Stack underflow"
  | limitNotNumber kind =>
    "'>=' not supported between instances of 'int' and '" ++ kind ++ "'"
  | noSuchKey index => "Key 0x" ++ hex 0 index ++ " is out of range"
  | spriteRow value => "Sprite row 0x" ++ hex 0 value ++ " is not a byte"
  | emptySide => "integer modulo by zero"
  | noSuchRegister index => "Register V" ++ hex 0 index ++ " does not exist"
  | registerIndex => "index out of bounds on dimension 1"
  | registerValue => "memoryview: invalid value for format 'B'"
  | programTooLong size start =>
    "Program of " ++ toString size ++ " bytes does not fit in memory at 0x" ++ hex 3 start
  | wordTooLarge => "int too big to convert"
  | wordNegative => "can't convert negative int to unsigned"

end Chip8
