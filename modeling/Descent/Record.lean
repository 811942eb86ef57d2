import Descent.Text.Quoted

/-! Log records: what the library reports while it works, as causes with a level and a text. -/

namespace Descent

inductive Level where
  | error
  | warn
  | info
  | debug
  | trace
  deriving DecidableEq

inductive Record where
  | blockCompiled (rules : Nat)
  | ruleDefined (name : Text)
  | ruleRedefined (name : Text)
  | parsing (bytes : Nat) (name : Text)
  | ruleMatched (name : Text)
  | ruleFailed (name : Text)
  | literalMatched (text : Text)
  | literalFailed (text : Text)
  | foreignMatch (type : Text)
  | foreignSkip
  | undefinedRule (name : Text)
  deriving DecidableEq

namespace Level

def name : Level → Text
  | error => "ERROR".toList
  | warn => "WARN".toList
  | info => "INFO".toList
  | debug => "DEBUG".toList
  | trace => "TRACE".toList

/-- A level for each degree of detail, the fewest records first. -/
def rank : Level → Nat
  | error => 1
  | warn => 2
  | info => 3
  | debug => 4
  | trace => 5

end Level

namespace Record

def level : Record → Level
  | blockCompiled _ => .debug
  | ruleDefined _ => .debug
  | ruleRedefined _ => .debug
  | parsing _ _ => .debug
  | ruleMatched _ => .trace
  | ruleFailed _ => .trace
  | literalMatched _ => .trace
  | literalFailed _ => .trace
  | foreignMatch _ => .warn
  | foreignSkip => .warn
  | undefinedRule _ => .warn

def message : Record → Text
  | blockCompiled rules =>
      "compiled grammar block with ".toList ++ Text.decimal rules ++ " rules".toList
  | ruleDefined name => "defining rule `".toList ++ name ++ ['`']
  | ruleRedefined name => "redefining rule `".toList ++ name ++ ['`']
  | parsing bytes name =>
      "parsing ".toList ++ Text.decimal bytes ++ " bytes starting from `".toList ++ name ++ ['`']
  | ruleMatched name => "success: ".toList ++ name
  | ruleFailed name => "failed: ".toList ++ name
  | literalMatched text => "success: literal ".toList ++ text.quoted
  | literalFailed text => "failed: literal ".toList ++ text.quoted
  | foreignMatch type =>
      "custom `".toList ++ type ++ "` match left a foreign string, treating it as failed".toList
  | foreignSkip => "whitespace policy returned a foreign string, skipping nothing".toList
  | undefinedRule name => "rule `".toList ++ name ++ "` is referenced but never defined".toList

/-- The level and the message. -/
def line (r : Record) : Text := r.level.name ++ [' '] ++ r.message

end Record

end Descent
