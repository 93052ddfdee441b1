import DocAtlas.Entry.Draft
import DocAtlas.Proofs.Tag.Attribution

/-!
# Faults of tags

A tag is a paragraph of prose, a closed command, or code that is left open. Which fault
it has is settled by the command and by what stands behind it. A tag that becomes
neither a section nor a flag is faulty, unless it is a see-also list that has an
argument without names.
-/

namespace DocAtlas

namespace Vocabulary

theorem mem_commands_of_lookup? {name : Text} {row : CommandSpec}
    (found : lookup? name = some row) : (name, row) ∈ commands := by
  obtain ⟨before, after, parts, _⟩ := List.lookup_eq_some_iff.mp found
  rw [parts]
  simp

theorem spec_mem (name : Text) : spec name ∈ unknown :: commands.map (·.2) := by
  unfold spec
  cases found : lookup? name with
  | none => exact List.mem_cons_self
  | some row =>
    exact List.mem_cons_of_mem _ (List.mem_map_of_mem (mem_commands_of_lookup? found))

theorem required_spec {name : Text}
    (kind : (spec name).kind = .since ∨ (spec name).kind = .module ∨ (spec name).kind = .seeAlso) :
    (spec name).required = true := by
  have all : ∀ row ∈ unknown :: commands.map (·.2),
      row.kind = .since ∨ row.kind = .module ∨ row.kind = .seeAlso → row.required = true := by
    decide
  exact all _ (spec_mem name) kind

theorem kind_of_verbatim {name : Text} (verbatim : (spec name).body = .verbatim) :
    (spec name).kind = .code := by
  have all : ∀ row ∈ unknown :: commands.map (·.2), row.body = .verbatim → row.kind = .code := by
    decide
  exact all _ (spec_mem name) verbatim

theorem kind_of_untilNextTag {name : Text} (reaches : (spec name).body = .untilNextTag) :
    (spec name).kind = .heading := by
  have all : ∀ row ∈ unknown :: commands.map (·.2), row.body = .untilNextTag →
      row.kind = .heading := by
    decide
  exact all _ (spec_mem name) reaches

end Vocabulary

inductive JudgedTag.Made (file : Text) : JudgedTag → Prop
  | prose {tag : Tag} : tag.kind = .prose → tag.target = none → Made file ⟨tag, none⟩
  | closed (pending : PendingTag) : Made file (pending.judged file)
  | unclosed {pending : PendingTag} :
      pending.spec.body = .verbatim → Made file ⟨pending.tag file, some .notClosed⟩

namespace OpenPart

variable {file : Text} {part : OpenPart} {judged : JudgedTag}

theorem made_of_mem_close (member : judged ∈ part.close file) : judged.Made file := by
  cases part with
  | nothing => simp [close] at member
  | prose first lines =>
    rw [List.mem_singleton.mp member]
    exact .prose rfl rfl
  | pending pending =>
    rw [List.mem_singleton.mp member]
    exact .closed pending

theorem made_of_mem_finish (member : judged ∈ part.finish file) : judged.Made file := by
  cases part with
  | nothing => simp [finish, close] at member
  | prose first lines =>
    have closing : judged ∈ (prose first lines).close file := member
    exact made_of_mem_close closing
  | pending pending =>
    simp only [finish] at member
    split at member
    · next verbatim =>
      rw [List.mem_singleton.mp member]
      exact .unclosed verbatim
    · rw [List.mem_singleton.mp member]
      exact .closed pending

end OpenPart

theorem Passage.made_of_mem_judged {file : Text} {passage : Passage} {judged : JudgedTag}
    (member : judged ∈ passage.judged file) : judged.Made file := by
  unfold Passage.judged at member
  split at member
  · exact OpenPart.made_of_mem_finish member
  · exact OpenPart.made_of_mem_close member

namespace PendingTag

variable {file : Text} {pending : PendingTag}

theorem argument_tag_eq_none : (pending.tag file).argument = none ↔ pending.argument = [] := by
  unfold tag
  by_cases empty : pending.argument = [] <;> simp [empty]

theorem fault?_of_missing (required : pending.spec.required = true)
    (missing : (pending.tag file).argument = none) : pending.fault? = some .missingArgument := by
  have empty := argument_tag_eq_none.mp missing
  simp [fault?, required, empty]

theorem fault?_of_brief (kind : (pending.tag file).kind = .brief)
    (silent : (pending.tag file).body = []) : pending.fault? ≠ none := by
  have brief : pending.spec.kind = .brief := kind
  have empty : pending.segments = [] := silent
  unfold fault?
  split
  · simp
  · simp [brief, empty, TagKind.isTopic]

theorem fault?_of_seeAlso (kind : (pending.tag file).kind = .seeAlso)
    (present : (pending.tag file).argument ≠ none) : pending.fault? = none := by
  have seeAlso : pending.spec.kind = .seeAlso := kind
  have nonempty : pending.argument ≠ [] := fun empty => present (argument_tag_eq_none.mpr empty)
  simp [fault?, seeAlso, nonempty, TagKind.isTopic]

theorem isTopic_of_target (names : (pending.tag file).target ≠ none) :
    (pending.tag file).kind.isTopic = true := by
  cases topic : pending.spec.kind.isTopic with
  | true => exact topic
  | false =>
    have nameless : (pending.tag file).target = none := if_neg (by simp [topic])
    exact absurd nameless names

end PendingTag

namespace Tag

def ListsNothing (tag : Tag) : Prop :=
  tag.kind = .seeAlso ∧ tag.argument ≠ none ∧ tag.targets = []

def setsFlag (tag : Tag) : Bool := tag.kind = .deprecated || tag.kind = .internal

end Tag

namespace JudgedTag.Made

variable {file : Text} {judged : JudgedTag}

/-- A tag about nothing that the reader can see is faulty, but for one case. -/
theorem fault_of_no_section (made : judged.Made file) (noTopic : judged.tag.kind.isTopic = false)
    (noFlag : judged.tag.setsFlag = false) (noSection : judged.tag.section? = none)
    (names : ¬judged.tag.ListsNothing) : judged.fault ≠ none := by
  cases made with
  | prose kind _ => simp [Tag.section?, kind] at noSection
  | unclosed verbatim => simp
  | closed pending =>
    -- Most kinds make a section only from their argument, which their commands require.
    have missing (required : pending.spec.required = true)
        (absent : (pending.tag file).argument = none) : (pending.judged file).fault ≠ none := by
      rw [PendingTag.judged, PendingTag.fault?_of_missing required absent]
      simp
    change (pending.tag file).section? = none at noSection
    change ¬(pending.tag file).ListsNothing at names
    cases kind : (pending.tag file).kind with
    | brief =>
      have silent : (pending.tag file).body = [] := by simpa [Tag.section?, kind] using noSection
      exact PendingTag.fault?_of_brief kind silent
    | since =>
      have absent : (pending.tag file).argument = none := by
        simpa [Tag.section?, kind] using noSection
      exact missing (Vocabulary.required_spec (.inl kind)) absent
    | module =>
      have absent : (pending.tag file).argument = none := by
        simpa [Tag.section?, kind] using noSection
      exact missing (Vocabulary.required_spec (.inr (.inl kind))) absent
    | seeAlso =>
      have nameless : (pending.tag file).targets = [] := by
        simpa [Tag.section?, kind] using noSection
      by_cases absent : (pending.tag file).argument = none
      · exact missing (Vocabulary.required_spec (.inr (.inr kind))) absent
      · exact absurd ⟨kind, absent, nameless⟩ names
    | prose | heading | note | warning | code | unknown => simp [Tag.section?, kind] at noSection
    | internal | deprecated => simp [Tag.setsFlag, PendingTag.judged, kind] at noFlag
    | classTopic | structTopic | namespaceTopic | propertyTopic | functionTopic | variableTopic
    | enumTopic | typedefTopic | macroTopic =>
      simp [PendingTag.judged, kind, TagKind.isTopic] at noTopic

theorem fault_of_listsNothing (made : judged.Made file) (nameless : judged.tag.ListsNothing) :
    judged.fault = none := by
  obtain ⟨kind, present, _⟩ := nameless
  cases made with
  | prose => rfl
  | closed pending => exact PendingTag.fault?_of_seeAlso kind present
  | @unclosed pending verbatim =>
    have code : (pending.tag file).kind = .code := Vocabulary.kind_of_verbatim verbatim
    rw [code] at kind
    cases kind

theorem isTopic_of_target (made : judged.Made file) (names : judged.tag.target ≠ none) :
    judged.tag.kind.isTopic = true := by
  cases made with
  | prose _ nameless => exact absurd nameless names
  | closed pending => exact PendingTag.isTopic_of_target names
  | unclosed _ => exact PendingTag.isTopic_of_target names

end JudgedTag.Made

theorem Run.made_of_mem_parse {markers : Markers} {sources : List Source}
    {parsed : ParsedComment} (member : parsed ∈ parse markers sources) {judged : JudgedTag}
    (inside : judged ∈ parsed.judged) : judged.Made parsed.comment.span.file := by
  obtain ⟨comment, _, rfl⟩ := List.mem_map.mp member
  change judged ∈ comment.judgedTags at inside
  rw [Comment.judgedTags_eq] at inside
  rcases List.mem_flatMap.mp inside with ⟨passage, _, own⟩
  exact Passage.made_of_mem_judged own

end DocAtlas
