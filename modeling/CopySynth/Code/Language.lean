import CopySynth.Code.Expr

/-!
# The language of generated code

Texts of a table become pieces of code: names become identifiers, names of builtins types, and zero
literals expressions. Which texts can, and as what they are read, is a matter of the language alone;
it is a parameter of the check of a table and of everything that writes code.
-/

namespace CopySynth.Code

/-- What the language makes of texts. -/
structure Language where
  /-- The bare word of a text that is an identifier. The check of a table asks whether there is one,
  and code shows it. -/
  identifier? : String → Option String
  /-- The tokens of the type that a text is. -/
  type? : String → Option (List Token)
  /-- The expression that a text is, with the brackets that code shows. -/
  expr? : String → Option Expr

/-- Whether a text is an identifier. -/
def Language.isIdentifier (language : Language) (text : String) : Bool :=
  (language.identifier? text).isSome

theorem Language.isIdentifier_iff {language : Language} {text : String} :
    language.isIdentifier text ↔ ∃ word, language.identifier? text = some word :=
  Option.isSome_iff_exists

/-- Words that cannot name anything. -/
def keywords : List String :=
  ["_", "abstract", "as", "async", "await", "become", "box", "break", "const", "continue", "crate",
    "do", "dyn", "else", "enum", "extern", "false", "final", "fn", "for", "if", "impl", "in",
    "let", "loop", "macro", "match", "mod", "move", "mut", "override", "priv", "pub", "ref",
    "return", "Self", "self", "static", "struct", "super", "trait", "true", "try", "type",
    "typeof", "unsafe", "unsized", "use", "virtual", "where", "while", "yield"]

/-- The laws of identifiers. -/
structure Language.Lawful (language : Language) : Prop where
  /-- No identifier is a keyword. -/
  noKeyword : ∀ text word, language.identifier? text = some word → word ∉ keywords
  /-- An identifier is a type, too. -/
  type : ∀ text word, language.identifier? text = some word → (language.type? text).isSome

end CopySynth.Code
