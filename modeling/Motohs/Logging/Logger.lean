import Motohs.Logging.Parse

/-! The logger itself: its settings, the line that each overload of `log_` prints, and
the hook through which the records of ESP-IDF come to it. -/

namespace Motohs.Logging

open Lib

def reset : List Char := "\x1b[m".toList

def bold : List Char := "\x1b[1m".toList

def white : List Char := "\x1b[37m".toList

/-- What `init` puts into `colors_`: cyan, green, yellow and red. -/
def colour : Level → List Char
  | .debug => "\x1b[36m".toList
  | .info => "\x1b[32m".toList
  | .warn => "\x1b[33m".toList
  | .err => "\x1b[31m".toList

/-- What `localtime_r` gives and the time stamp shows. -/
structure ClockTime where
  hour : Fin 24
  minute : Fin 60
  second : Fin 61

/-- The two formats of the library {fmt} that `prefix` is made with. -/
structure Fmt where
  /-- `{:%H:%M:%S}` -/
  clock : ClockTime → List Char
  clock_symbols : ∀ time, ∀ symbol ∈ clock time, symbol.isDigit = true ∨ symbol = ':'
  /-- `{:^10}` -/
  centred : List Char → List Char
  centred_pads : ∀ text, ∃ left right,
    centred text = List.replicate left ' ' ++ text ++ List.replicate right ' '

/-- `prefix(tag)` at the given time. -/
def Fmt.tagPrefix (fmt : Fmt) (time : ClockTime) (tag : List Char) : List Char :=
  bold ++ '[' :: fmt.clock time ++ "][".toList ++ fmt.centred tag ++ "]:".toList ++ white ++ [' ']

/-- `printf("%s\n", s)` -/
def printLine (text : List Char) : List Char := cString '\x00' (text ++ ['\x00']) ++ ['\n']

/-- The static data of `Logger`, and whether `vprintf_override` is set in ESP-IDF. -/
structure Logger where
  colors : Level → List Char
  shouldDoColors : Bool
  hooked : Bool

namespace Logger

/-- Before any call. -/
def start : Logger := ⟨fun _ => [], true, false⟩

def setColorMode (mode : Bool) (logger : Logger) : Logger := { logger with shouldDoColors := mode }

def init (colorMode : Bool) (logger : Logger) : Logger :=
  { ({ logger with colors := colour } : Logger).setColorMode colorMode with hooked := true }

/-- The line that `log_` prints for a format and its arguments, which come to `text`,
or to an exception. -/
def logFormatted (fmt : Fmt) (time : ClockTime) (tag : List Char) (lvl : Level)
    (text : Option (List Char)) (logger : Logger) : List Char :=
  match text with
  | some text => printLine (logger.colors lvl ++ fmt.tagPrefix time tag ++ text)
  | none => "log error\n".toList

/-- The line that `log_` prints for a string. -/
def logString (fmt : Fmt) (time : ClockTime) (call : LogCall) (logger : Logger) : List Char :=
  printLine (logger.colors call.lvl ++ fmt.tagPrefix time call.tag ++ call.msg ++ reset)

end Logger

/-- What the program does with the logger. -/
inductive LogEvent where
  | init (colorMode : Bool)
  | setColorMode (mode : Bool)
  /-- Any of the templates `log`, `log_debug` to `log_error`. -/
  | log (time : ClockTime) (tag : List Char) (lvl : Level) (text : Option (List Char))
  /-- A call of an `ESP_LOGx` macro, with what its format and arguments come to. -/
  | espLog (time : ClockTime) (formatted : List Char)

namespace Logger

def step (logger : Logger) : LogEvent → Logger
  | .init colorMode => logger.init colorMode
  | .setColorMode mode => logger.setColorMode mode
  | .log _ _ _ _ | .espLog _ _ => logger

/-- The line that the logger prints, if any. As long as the hook is not set ESP-IDF
prints its records itself. -/
def printed (fmt : Fmt) (logger : Logger) : LogEvent → Option (List Char)
  | .init _ | .setColorMode _ => none
  | .log time tag lvl text => some (logger.logFormatted fmt time tag lvl text)
  | .espLog time formatted =>
    if logger.hooked then
      match vprintfOverride formatted with
      | .ok (some call, _) => some (logger.logString fmt time call)
      | _ => none
    else none

end Logger

/-- The logger together with all that it has printed. -/
structure Session where
  logger : Logger
  console : List Char

namespace Session

def start : Session := ⟨.start, []⟩

def step (fmt : Fmt) (session : Session) (event : LogEvent) : Session :=
  ⟨session.logger.step event, session.console ++ (session.logger.printed fmt event).getD []⟩

def after (fmt : Fmt) (events : List LogEvent) : Session := events.foldl (step fmt) start

theorem after_concat (fmt : Fmt) (past : List LogEvent) (event : LogEvent) :
    after fmt (past ++ [event]) = (after fmt past).step fmt event :=
  List.foldl_concat _ _ _ _

end Session

theorem printLine_terminated (terminated : '\x00' ∉ text) : printLine text = text ++ ['\n'] := by
  rw [printLine, cString_append terminated]

/-- Up to where nothing is cut off, what is printed is known. -/
theorem printLine_append (terminated : '\x00' ∉ front) (back : List Char) :
    printLine (front ++ back) = front ++ printLine back := by
  rw [printLine, printLine, List.append_assoc, cString_front terminated, List.append_assoc]

/-- The first terminator ends the line. -/
theorem printLine_cut (terminated : '\x00' ∉ front) (back : List Char) :
    printLine (front ++ '\x00' :: back) = front ++ ['\n'] := by
  rw [printLine_append terminated]
  rfl

theorem mem_printLine (member : symbol ∈ printLine text) : symbol ∈ text ∨ symbol = '\n' := by
  rcases List.mem_append.mp member with inside | last
  · have before := (List.takeWhile_sublist _).subset inside
    rcases List.mem_append.mp before with here | terminator
    · exact .inl here
    · have kept := List.mem_takeWhile_imp inside
      rw [List.mem_singleton.mp terminator] at kept
      cases kept
  · exact .inr (List.mem_singleton.mp last)

end Motohs.Logging
