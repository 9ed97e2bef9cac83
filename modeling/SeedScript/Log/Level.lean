import SeedScript.Error
import SeedScript.Settings.Basic

/-!
# Log levels by name

The word for a level comes from the settings, or from the bare environment when the settings are
not valid. Unknown words stand for the level of information. Two words stand for things that are
no levels, which shows when the level is set.
-/

namespace SeedScript.Log

/-- What a word in capitals stands for. -/
inductive Meaning where
  | level (n : Int)
  | layout (text : String)
  | layouts (shown : String)
deriving DecidableEq, Repr

namespace Meaning

def defaultLevel : Int := 20

def basicLayout : String := "%(levelname)s:%(name)s:%(message)s"

def layoutTable : String :=
  "\x7b'%': (<class 'logging.PercentStyle'>, '" ++ basicLayout ++
    "'), '\x7b': (<class 'logging.StrFormatStyle'>, '\x7blevelname\x7d:\x7bname\x7d:\x7bmessage\x7d')" ++
    ", '$': (<class 'logging.StringTemplateStyle'>, '$\x7blevelname\x7d:$\x7bname\x7d:$\x7bmessage\x7d')\x7d"

def ofWord : String → Meaning
  | "CRITICAL" | "FATAL" => level 50
  | "ERROR" => level 40
  | "WARNING" | "WARN" => level 30
  | "INFO" => level 20
  | "DEBUG" => level 10
  | "NOTSET" => level 0
  | "BASIC_FORMAT" => layout basicLayout
  | "_STYLES" => layouts layoutTable
  | _ => level defaultLevel

def toLevel : Meaning → Except Error Int
  | level n => .ok n
  | layout text => .error (.levelNotNumber (Text.quoted text) true)
  | layouts shown => .error (.levelNotNumber shown false)

end Meaning

def levelWord (environment : Environment) (settings : Except Error Settings) : String :=
  Text.upperCase <|
    match settings with
    | .ok s => s.logLevel
    | .error _ => (environment.get? "LOG_LEVEL").getD "INFO"

end SeedScript.Log
