import DocAtlas.Text.Blank

/-!
# Segments

A body of documentation is a list of segments: plain text, marked-up words,
references to symbols, code blocks, and breaks between paragraphs.
-/

namespace DocAtlas

inductive Segment where
  | text (text : Text)
  | code (text : Text)
  | emphasis (text : Text)
  | bold (text : Text)
  | reference (text target : Text)
  | codeBlock (text : Text)
  | paragraphBreak
deriving DecidableEq, Repr

namespace Segment

def label : Segment → Text
  | text _ => "text"
  | code _ => "code"
  | emphasis _ => "emphasis"
  | bold _ => "bold"
  | reference _ _ => "reference"
  | codeBlock _ => "code-block"
  | paragraphBreak => "break"

def content : Segment → Text
  | text content | code content | emphasis content | bold content | reference content _
  | codeBlock content => content
  | paragraphBreak => []

def target? : Segment → Option Text
  | reference _ target => some target
  | _ => none

def reading : Segment → Text
  | paragraphBreak => ['\n', '\n']
  | segment => segment.content

def plainText (segments : List Segment) : Text := Text.trim (segments.flatMap reading)

def targets (segments : List Segment) : List Text := segments.filterMap target?

end Segment

end DocAtlas
