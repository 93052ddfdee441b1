import DocAtlas.Comment
import DocAtlas.Tag
import DocAtlas.Tag.NameList
import DocAtlas.Segment.Paragraph
import DocAtlas.Text.Indent

/-!
# The tags of a comment

A comment is read line by line. At any time either nothing is open, or a paragraph of
prose, or the body of one command; a line extends what is open, closes it, or opens
something new. What is closed is a tag, perhaps with a fault.
-/

namespace DocAtlas

open Text (trim)

/-- A command whose body may still be growing. -/
structure PendingTag where
  marker : Text
  line : Nat
  argument : Text
  body : List Text
deriving DecidableEq, Repr

inductive OpenPart where
  | nothing
  | prose (line : Nat) (lines : List Text)
  | pending (tag : PendingTag)
deriving DecidableEq, Repr

structure JudgedTag where
  tag : Tag
  fault : Option TagFault
deriving DecidableEq, Repr

namespace PendingTag

def spec (pending : PendingTag) : CommandSpec := Vocabulary.spec pending.marker

/-- The code that some lines hold: its margin and its outer empty lines removed. -/
def codeText (lines : List Text) : Text :=
  Text.trimNewlines (Text.unlines (Text.dedent lines))

def target? (pending : PendingTag) : Option Text :=
  if pending.spec.kind.isTopic then Name.ofArgument? pending.argument else none

def targets (pending : PendingTag) : List Text :=
  if pending.spec.argument = .symbolList then NameList.read pending.argument else []

/-- The body of a tag; a paragraph begins on the line of its command. -/
def segments (pending : PendingTag) : List Segment :=
  match pending.spec.body with
  | .none => []
  | .verbatim => [.codeBlock (codeText pending.body)]
  | .paragraph => Segment.ofProse (trim (Text.unwords (pending.argument :: pending.body)))
  | .untilNextTag => Segment.ofLines pending.body

def tag (file : Text) (pending : PendingTag) : Tag :=
  { kind := pending.spec.kind
    marker := pending.marker
    file := file
    line := pending.line
    argument := if pending.argument = [] then none else some pending.argument
    target := pending.target?
    targets := pending.targets
    body := pending.segments }

def fault? (pending : PendingTag) : Option TagFault :=
  if pending.spec.required ∧ pending.argument = [] then some .missingArgument
  else if pending.spec.kind.isTopic ∧ pending.target? = none then some .namesNoSymbol
  else if pending.spec.kind = .brief ∧ pending.segments = [] then some .noText
  else none

def judged (file : Text) (pending : PendingTag) : JudgedTag :=
  ⟨pending.tag file, pending.fault?⟩

end PendingTag

def readCommand? (line : Text) : Option (Text × Text) :=
  match line with
  | '\\' :: c :: rest =>
    if c.isAlpha then
      some (c :: rest.takeWhile Char.isAlphanum, trim (rest.dropWhile Char.isAlphanum))
    else none
  | _ => none

/-- The command that a line opens: inline commands open none. -/
def opensTag? (line : Text) : Option (Text × Text) :=
  match readCommand? (trim line) with
  | none => none
  | some (name, argument) =>
    if (Vocabulary.inlineStyle? name).isSome then none else some (name, argument)

namespace OpenPart

def close (file : Text) : OpenPart → List JudgedTag
  | nothing => []
  | prose line lines =>
    [⟨{ kind := .prose, marker := [], file := file, line := line, argument := none,
        target := none, targets := [], body := Segment.ofProse (Text.unwords lines) }, none⟩]
  | pending tag => [tag.judged file]

/-- The tags that are left at the end of a comment, where open code is a fault. -/
def finish (file : Text) : OpenPart → List JudgedTag
  | pending tag =>
    if tag.spec.body = .verbatim then [⟨tag.tag file, some .notClosed⟩] else [tag.judged file]
  | part => part.close file

/-- What a command opens; it is complete at once if it has no body. -/
def ofCommand (file : Text) (line : Nat) (name argument : Text) : List JudgedTag × OpenPart :=
  let tag : PendingTag := ⟨name, line, argument, []⟩
  if tag.spec.body = .none then ([tag.judged file], nothing) else ([], pending tag)

def takePlain (file : Text) (line : Nat) (content : Text) : OpenPart → List JudgedTag × OpenPart
  | nothing => ([], if content = [] then nothing else prose line [content])
  | prose first lines =>
    if content = [] then ((prose first lines).close file, nothing)
    else ([], prose first (lines ++ [content]))
  | pending tag =>
    if tag.spec.body = .paragraph ∧ content = [] then ([tag.judged file], nothing)
    else ([], pending { tag with body := tag.body ++ [content] })

def takeLine (file : Text) (line : Nat) (raw : Text) (part : OpenPart) :
    List JudgedTag × OpenPart :=
  match opensTag? raw with
  | some (name, argument) =>
    (part.close file ++ (ofCommand file line name argument).1,
      (ofCommand file line name argument).2)
  | none => part.takePlain file line (trim raw)

/-- Takes one line: the tags that it completes, and what is open behind it. -/
def feed (file : Text) (line : Nat) (raw : Text) (part : OpenPart) :
    List JudgedTag × OpenPart :=
  match part with
  | pending tag =>
    if tag.spec.body = .verbatim then
      if trim raw = '\\' :: Vocabulary.codeEnd then ([tag.judged file], nothing)
      else ([], pending { tag with body := tag.body ++ [raw] })
    else takeLine file line raw (pending tag)
  | part => takeLine file line raw part

def run (file : Text) (part : OpenPart) (line : Nat) : List Text → List JudgedTag
  | [] => part.finish file
  | raw :: rest =>
    (part.feed file line raw).1 ++ run file (part.feed file line raw).2 (line + 1) rest

end OpenPart

namespace Comment

def judgedTags (comment : Comment) : List JudgedTag :=
  OpenPart.run comment.span.file .nothing comment.span.startLine (Text.lines comment.text)

end Comment

structure ParsedComment where
  comment : Comment
  judged : List JudgedTag
deriving DecidableEq, Repr

namespace ParsedComment

def tags (parsed : ParsedComment) : List Tag := parsed.judged.map (·.tag)

def explicitTopic? (parsed : ParsedComment) : Option Tag :=
  parsed.tags.find? fun tag => tag.target.isSome

end ParsedComment

def Comment.parse (comment : Comment) : ParsedComment := ⟨comment, comment.judgedTags⟩

end DocAtlas
