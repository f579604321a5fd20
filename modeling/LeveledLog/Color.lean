/-
Colours and text attributes of a terminal.

A colour is turned on by the escape sequence `ESC [ n m`, where the number `n`
belongs to the colour; `reset` turns every colour and attribute off.  A colour
mode says whether escape sequences are written at all: always, never, or only
where the terminal shows them.
-/

namespace LeveledLog

inductive Color where
  | reset | dim | bold | underline | italic | blink | reverse | hidden
  | strike
  | black | red | green | yellow | blue | magenta | cyan | white
  | gray | brightRed | brightGreen | brightYellow | brightBlue | brightMagenta
  | brightCyan | brightWhite
  | bgBlack | bgRed | bgGreen | bgYellow | bgBlue | bgMagenta | bgCyan
  | bgWhite
  | bgGray | bgBrightRed | bgBrightGreen | bgBrightYellow | bgBrightBlue
  | bgBrightMagenta | bgBrightCyan | bgBrightWhite
deriving DecidableEq

namespace Color

/-- Every colour, in the order of the terminal's groups: attributes, plain and
bright text colours, plain and bright backgrounds. -/
def all : List Color :=
  [.reset, .dim, .bold, .underline, .italic, .blink, .reverse, .hidden,
   .strike, .black, .red, .green, .yellow, .blue, .magenta, .cyan, .white,
   .gray, .brightRed, .brightGreen, .brightYellow, .brightBlue,
   .brightMagenta, .brightCyan, .brightWhite, .bgBlack, .bgRed, .bgGreen,
   .bgYellow, .bgBlue, .bgMagenta, .bgCyan, .bgWhite, .bgGray, .bgBrightRed,
   .bgBrightGreen, .bgBrightYellow, .bgBrightBlue, .bgBrightMagenta,
   .bgBrightCyan, .bgBrightWhite]

def parameter : Color → String
  | .reset => "0"
  | .dim => "2"
  | .bold => "1"
  | .underline => "4"
  | .italic => "3"
  | .blink => "5"
  | .reverse => "7"
  | .hidden => "8"
  | .strike => "9"
  | .black => "30"
  | .red => "31"
  | .green => "32"
  | .yellow => "33"
  | .blue => "34"
  | .magenta => "35"
  | .cyan => "36"
  | .white => "37"
  | .gray => "90"
  | .brightRed => "91"
  | .brightGreen => "92"
  | .brightYellow => "93"
  | .brightBlue => "94"
  | .brightMagenta => "95"
  | .brightCyan => "96"
  | .brightWhite => "97"
  | .bgBlack => "40"
  | .bgRed => "41"
  | .bgGreen => "42"
  | .bgYellow => "43"
  | .bgBlue => "44"
  | .bgMagenta => "45"
  | .bgCyan => "46"
  | .bgWhite => "47"
  | .bgGray => "100"
  | .bgBrightRed => "101"
  | .bgBrightGreen => "102"
  | .bgBrightYellow => "103"
  | .bgBrightBlue => "104"
  | .bgBrightMagenta => "105"
  | .bgBrightCyan => "106"
  | .bgBrightWhite => "107"

def name : Color → String
  | .reset => "Reset"
  | .dim => "Dim"
  | .bold => "Bold"
  | .underline => "Underline"
  | .italic => "Italic"
  | .blink => "Blink"
  | .reverse => "Reverse"
  | .hidden => "Hidden"
  | .strike => "Strike"
  | .black => "Black"
  | .red => "Red"
  | .green => "Green"
  | .yellow => "Yellow"
  | .blue => "Blue"
  | .magenta => "Magenta"
  | .cyan => "Cyan"
  | .white => "White"
  | .gray => "Gray"
  | .brightRed => "BrightRed"
  | .brightGreen => "BrightGreen"
  | .brightYellow => "BrightYellow"
  | .brightBlue => "BrightBlue"
  | .brightMagenta => "BrightMagenta"
  | .brightCyan => "BrightCyan"
  | .brightWhite => "BrightWhite"
  | .bgBlack => "BgBlack"
  | .bgRed => "BgRed"
  | .bgGreen => "BgGreen"
  | .bgYellow => "BgYellow"
  | .bgBlue => "BgBlue"
  | .bgMagenta => "BgMagenta"
  | .bgCyan => "BgCyan"
  | .bgWhite => "BgWhite"
  | .bgGray => "BgGray"
  | .bgBrightRed => "BgBrightRed"
  | .bgBrightGreen => "BgBrightGreen"
  | .bgBrightYellow => "BgBrightYellow"
  | .bgBrightBlue => "BgBrightBlue"
  | .bgBrightMagenta => "BgBrightMagenta"
  | .bgBrightCyan => "BgBrightCyan"
  | .bgBrightWhite => "BgBrightWhite"

def ofName? (name : String) : Option Color :=
  all.find? fun color => color.name == name

def escape (color : Color) : String :=
  "\x1b[" ++ color.parameter ++ "m"

end Color

/-- When escape sequences are written: where the terminal shows them, always,
or never. -/
inductive ColorMode where
  | auto | always | never
deriving DecidableEq

namespace ColorMode

def standard : ColorMode := .auto

def code : ColorMode → Nat
  | .auto => 0
  | .always => 1
  | .never => 2

def enabled (mode : ColorMode) (terminal : Bool) : Bool :=
  match mode with
  | .auto => terminal
  | .always => true
  | .never => false

end ColorMode

end LeveledLog
