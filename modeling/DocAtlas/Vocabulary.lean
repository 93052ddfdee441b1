import DocAtlas.Text.Basic

/-!
# The command vocabulary

The commands that may open a line of a documentation comment, each with the kind of
tag it makes, the shape of its argument, how far its body reaches, and whether the
argument may be missing. A command outside the vocabulary makes an unknown tag. A few
one-letter commands belong inside prose and never open a tag.
-/

namespace DocAtlas

inductive TagKind where
  | prose
  | classTopic
  | structTopic
  | namespaceTopic
  | propertyTopic
  | functionTopic
  | variableTopic
  | enumTopic
  | typedefTopic
  | macroTopic
  | brief
  | since
  | module
  | seeAlso
  | heading
  | note
  | warning
  | code
  | internal
  | deprecated
  | unknown
deriving DecidableEq, Repr

namespace TagKind

def label : TagKind → Text
  | prose => "text"
  | classTopic => "class"
  | structTopic => "struct"
  | namespaceTopic => "namespace"
  | propertyTopic => "property"
  | functionTopic => "fn"
  | variableTopic => "variable"
  | enumTopic => "enum"
  | typedefTopic => "typedef"
  | macroTopic => "macro"
  | brief => "brief"
  | since => "since"
  | module => "inmodule"
  | seeAlso => "sa"
  | heading => "section"
  | note => "note"
  | warning => "warning"
  | code => "code"
  | internal => "internal"
  | deprecated => "deprecated"
  | unknown => "unknown"

def isTopic : TagKind → Bool
  | classTopic | structTopic | namespaceTopic | propertyTopic | functionTopic
  | variableTopic | enumTopic | typedefTopic | macroTopic => true
  | _ => false

end TagKind

inductive ArgumentShape where
  | none
  | symbol
  | symbolList
  | token
  | text
deriving DecidableEq, Repr

namespace ArgumentShape

def label : ArgumentShape → Text
  | none => "none"
  | symbol => "symbol"
  | symbolList => "symbol-list"
  | token => "token"
  | text => "text"

end ArgumentShape

inductive BodyExtent where
  | none
  | paragraph
  | untilNextTag
  | verbatim
deriving DecidableEq, Repr

namespace BodyExtent

def label : BodyExtent → Text
  | none => "none"
  | paragraph => "paragraph"
  | untilNextTag => "until-next-tag"
  | verbatim => "verbatim"

end BodyExtent

structure CommandSpec where
  kind : TagKind
  argument : ArgumentShape
  body : BodyExtent
  required : Bool
deriving DecidableEq, Repr

inductive InlineStyle where
  | code
  | emphasis
  | bold
  | reference
deriving DecidableEq, Repr

namespace InlineStyle

def label : InlineStyle → Text
  | code => "code"
  | emphasis => "emphasis"
  | bold => "bold"
  | reference => "reference"

end InlineStyle

namespace Vocabulary

def version : Text := "1"

private def topic (kind : TagKind) : CommandSpec := ⟨kind, .symbol, .none, true⟩

private def heading : CommandSpec := ⟨.heading, .text, .untilNextTag, true⟩

def commands : List (Text × CommandSpec) :=
  [("class", topic .classTopic),
   ("struct", topic .structTopic),
   ("namespace", topic .namespaceTopic),
   ("property", topic .propertyTopic),
   ("fn", topic .functionTopic),
   ("variable", topic .variableTopic),
   ("enum", topic .enumTopic),
   ("typedef", topic .typedefTopic),
   ("macro", topic .macroTopic),
   ("brief", ⟨.brief, .text, .paragraph, false⟩),
   ("since", ⟨.since, .token, .none, true⟩),
   ("inmodule", ⟨.module, .token, .none, true⟩),
   ("sa", ⟨.seeAlso, .symbolList, .none, true⟩),
   ("section1", heading),
   ("section2", heading),
   ("section3", heading),
   ("section4", heading),
   ("note", ⟨.note, .text, .paragraph, false⟩),
   ("warning", ⟨.warning, .text, .paragraph, false⟩),
   ("code", ⟨.code, .none, .verbatim, false⟩),
   ("internal", ⟨.internal, .none, .none, false⟩),
   ("deprecated", ⟨.deprecated, .none, .none, false⟩),
   ("obsolete", ⟨.deprecated, .none, .none, false⟩)]

def unknown : CommandSpec := ⟨.unknown, .text, .paragraph, false⟩

def lookup? (name : Text) : Option CommandSpec := commands.lookup name

def spec (name : Text) : CommandSpec := (lookup? name).getD unknown

def inlineCommands : List (Text × InlineStyle) :=
  [("c", .code), ("a", .code), ("e", .emphasis), ("i", .emphasis), ("b", .bold),
   ("l", .reference)]

def inlineStyle? (name : Text) : Option InlineStyle := inlineCommands.lookup name

def codeEnd : Text := "endcode"

end Vocabulary

end DocAtlas
