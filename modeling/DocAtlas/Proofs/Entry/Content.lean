import DocAtlas.Entry.Draft
import DocAtlas.Proofs.Lists

/-!
# What an entry is made of

An entry is a function of its symbol and of the tags of its comments, in their order.
At most one tag serves as the brief: the first written brief that says something, or
else the prose that the first comment opens with. The others make the sections.
-/

namespace DocAtlas

/-- A reference as someone has written it: from where it stands, not settled yet, and no
link. -/
structure CrossReference.WrittenIn (source : Text) (reference : CrossReference) : Prop where
  source_eq : reference.source = source
  unresolved : reference.state = .unresolved
  explicit : reference.origin ≠ .implicit

namespace Tag

def writesBrief (tag : Tag) : Bool := decide (tag.kind = .brief ∧ tag.body ≠ [])

def opensWithProse : List Tag → Bool
  | [] => false
  | tag :: rest => decide (tag.kind = .prose) || (tag.kind.isTopic && opensWithProse rest)

theorem section?_of_isTopic {tag : Tag} (topic : tag.kind.isTopic = true) :
    tag.section? = none := by
  cases kind : tag.kind <;> simp_all [section?, TagKind.isTopic]

theorem ne_prose_of_isTopic {tag : Tag} (topic : tag.kind.isTopic = true) :
    tag.kind ≠ .prose := by
  intro prose
  rw [prose] at topic
  cases topic

theorem opensWithProse_eq_true {tags : List Tag} (opens : opensWithProse tags = true) :
    ∃ topics prose rest, tags = topics ++ prose :: rest ∧
      (∀ tag ∈ topics, tag.kind.isTopic = true) ∧ prose.kind = .prose := by
  induction tags with
  | nil => simp [opensWithProse] at opens
  | cons tag rest induction =>
    simp only [opensWithProse, Bool.or_eq_true, decide_eq_true_eq, Bool.and_eq_true] at opens
    rcases opens with prose | ⟨topic, later⟩
    · exact ⟨[], tag, rest, rfl, by simp, prose⟩
    · obtain ⟨topics, prose, others, rfl, allTopics, isProse⟩ := induction later
      exact ⟨tag :: topics, prose, others, rfl, List.forall_mem_cons.mpr ⟨topic, allTopics⟩,
        isProse⟩

theorem opensWithProse_append {tags : List Tag} (opens : opensWithProse tags = true)
    (more : List Tag) : opensWithProse (tags ++ more) = true := by
  induction tags with
  | nil => simp [opensWithProse] at opens
  | cons tag rest induction =>
    simp only [opensWithProse, Bool.or_eq_true, decide_eq_true_eq, Bool.and_eq_true,
      List.cons_append] at opens ⊢
    exact opens.imp_right fun later => ⟨later.1, induction later.2⟩

theorem of_mem_references {source : Text} {tag : Tag} {reference : CrossReference}
    (member : reference ∈ tag.references source) : reference.WrittenIn source := by
  rcases List.mem_append.mp member with inline | seeAlso
  · rcases List.mem_map.mp inline with ⟨target, _, rfl⟩
    exact ⟨rfl, rfl, by simp⟩
  · split at seeAlso
    · rcases List.mem_map.mp seeAlso with ⟨target, _, rfl⟩
      exact ⟨rfl, rfl, by simp⟩
    · exact absurd seeAlso List.not_mem_nil

end Tag

def ParsedComment.opensWithProse : List ParsedComment → Bool
  | [] => false
  | first :: _ => Tag.opensWithProse first.tags

def Flags.ofTags (tags : List Tag) : Flags :=
  tags.foldl (fun flags tag => flags.add tag.kind) .none

namespace Flags

theorem foldl_add (flags : Flags) (tags : List Tag) :
    tags.foldl (fun flags tag => flags.add tag.kind) flags =
      ⟨flags.deprecated || tags.any fun tag => tag.kind = .deprecated,
        flags.internal || tags.any fun tag => tag.kind = .internal⟩ := by
  induction tags generalizing flags with
  | nil => simp
  | cons tag rest induction =>
    rw [List.foldl_cons, induction, List.any_cons, List.any_cons]
    cases kind : tag.kind <;> simp [add]

theorem deprecated_ofTags {tags : List Tag} :
    (ofTags tags).deprecated = true ↔ ∃ tag ∈ tags, tag.kind = .deprecated := by
  rw [ofTags, foldl_add]
  simp [none]

theorem internal_ofTags {tags : List Tag} :
    (ofTags tags).internal = true ↔ ∃ tag ∈ tags, tag.kind = .internal := by
  rw [ofTags, foldl_add]
  simp [none]

end Flags

namespace Draft

/-- What a draft holds after some tags: everything in it is a function of them, of the
spans of the comments, and of whether the first comment opens with prose. -/
structure Gathers (draft : Draft) (symbol : Symbol) (spans : List Span) (opens : Bool)
    (tags : List Tag) : Prop where
  symbol_eq : draft.symbol = symbol
  brief_eq : draft.brief = (tags.find? Tag.writesBrief).map (·.body)
  leads_eq : draft.leads = opens
  sections_eq : draft.sections = (tags.eraseP Tag.writesBrief).filterMap Tag.section?
  references_eq : draft.references = tags.flatMap (Tag.references symbol.name)
  flags_eq : draft.flags = Flags.ofTags tags
  spans_eq : draft.spans = spans
  tags_eq : draft.tags = tags

variable {draft : Draft} {symbol : Symbol} {spans : List Span} {opens : Bool}
  {tags : List Tag}

theorem start_gathers (symbol : Symbol) : (start symbol).Gathers symbol [] false [] := by
  constructor <;> rfl

private theorem filterMap_eraseP_concat (tags : List Tag) (tag : Tag) :
    ((tags ++ [tag]).eraseP Tag.writesBrief).filterMap Tag.section? =
      (tags.eraseP Tag.writesBrief).filterMap Tag.section? ++
        if tag.writesBrief ∧ tags.find? Tag.writesBrief = none then []
        else tag.section?.toList := by
  have single : [tag].filterMap Tag.section? = tag.section?.toList := by
    cases made : tag.section? <;> simp [made]
  cases found : tags.find? Tag.writesBrief with
  | none =>
    have unwritten := List.find?_eq_none.mp found
    rw [List.eraseP_append_right _ unwritten, List.eraseP_of_forall_not unwritten,
      List.filterMap_append]
    by_cases writes : tag.writesBrief
    · simp [writes]
    · simp [writes, single]
  | some other =>
    rw [List.eraseP_append_left (List.find?_some found) _ (List.mem_of_find?_eq_some found),
      List.filterMap_append, single]
    simp

theorem Gathers.takeTag (gathered : draft.Gathers symbol spans opens tags) (leading : Bool)
    (tag : Tag) :
    (draft.takeTag leading tag).Gathers symbol spans
      (opens || (leading && decide (tag.kind = .prose))) (tags ++ [tag]) := by
  have isBrief : (tag.kind = .brief ∧ tag.body ≠ [] ∧ draft.brief = none) ↔
      (tag.writesBrief ∧ tags.find? Tag.writesBrief = none) := by
    rw [gathered.brief_eq, Option.map_eq_none_iff, Tag.writesBrief, decide_eq_true_eq, and_assoc]
  constructor
  case symbol_eq => exact gathered.symbol_eq
  case brief_eq =>
    rw [Draft.takeTag, List.find?_append, Option.map_or, ← gathered.brief_eq]
    simp only [isBrief]
    rw [gathered.brief_eq]
    cases found : tags.find? Tag.writesBrief <;> cases writes : tag.writesBrief <;> simp [writes]
  case leads_eq => rw [Draft.takeTag, gathered.leads_eq]
  case sections_eq =>
    rw [filterMap_eraseP_concat, ← gathered.sections_eq, Draft.takeTag]
    simp only [isBrief]
    split <;> simp
  case references_eq =>
    rw [Draft.takeTag, gathered.references_eq, gathered.symbol_eq, List.flatMap_append]
    simp
  case flags_eq =>
    rw [Draft.takeTag, gathered.flags_eq, Flags.ofTags, Flags.ofTags, List.foldl_append]
    rfl
  case spans_eq => exact gathered.spans_eq
  case tags_eq => rw [Draft.takeTag, gathered.tags_eq]

theorem Gathers.takeTags (gathered : draft.Gathers symbol spans opens tags) (leading : Bool)
    (more : List Tag) :
    (draft.takeTags leading more).Gathers symbol spans
      (opens || (leading && Tag.opensWithProse more)) (tags ++ more) := by
  induction more generalizing draft leading opens tags with
  | nil => simpa [Draft.takeTags, Tag.opensWithProse] using gathered
  | cons tag rest induction =>
    have whole := induction (gathered.takeTag leading tag) (leading && staysLeading tag)
    rw [List.append_assoc] at whole
    have same : (opens || (leading && decide (tag.kind = .prose)) ||
        (leading && staysLeading tag && Tag.opensWithProse rest)) =
        (opens || (leading && Tag.opensWithProse (tag :: rest))) := by
      by_cases prose : tag.kind = .prose <;> cases leading <;> cases opens <;>
        simp [Tag.opensWithProse, staysLeading, prose]
    exact same ▸ whole

theorem Gathers.take (gathered : draft.Gathers symbol spans opens tags)
    (parsed : ParsedComment) :
    (draft.take parsed).Gathers symbol (spans ++ [parsed.comment.span])
      (opens || (spans.isEmpty && Tag.opensWithProse parsed.tags)) (tags ++ parsed.tags) := by
  have taken := gathered.takeTags spans.isEmpty parsed.tags
  rw [Draft.take, gathered.spans_eq]
  exact { taken with spans_eq := by rw [taken.spans_eq] }

theorem Gathers.foldl_take (gathered : draft.Gathers symbol spans opens tags)
    (comments : List ParsedComment) :
    (comments.foldl Draft.take draft).Gathers symbol
      (spans ++ comments.map (·.comment.span))
      (opens || (spans.isEmpty && ParsedComment.opensWithProse comments))
      (tags ++ comments.flatMap (·.tags)) := by
  induction comments generalizing draft spans opens tags with
  | nil => simpa [ParsedComment.opensWithProse] using gathered
  | cons parsed rest induction =>
    have whole := induction (gathered.take parsed)
    have nonempty : (spans ++ [parsed.comment.span]).isEmpty = false := by simp
    rw [nonempty, Bool.false_and, Bool.or_false] at whole
    simpa [ParsedComment.opensWithProse, List.append_assoc] using whole

/-- Which tags may serve as the brief: written briefs, and prose only where there is no
written brief and prose opens the first comment. -/
def servesAsBrief (opens : Bool) (tags : List Tag) (tag : Tag) : Bool :=
  if tags.any Tag.writesBrief then tag.writesBrief else opens && decide (tag.kind = .prose)

theorem servesAsBrief_kind {opens : Bool} {tags : List Tag} {tag : Tag}
    (serves : servesAsBrief opens tags tag = true) :
    tag.kind = .prose ∨ tag.writesBrief = true := by
  unfold servesAsBrief at serves
  split at serves
  · exact .inr serves
  · rw [Bool.and_eq_true, decide_eq_true_eq] at serves
    exact .inl serves.2

theorem servesAsBrief_of_written {tags : List Tag} {written : Tag} (opens : Bool)
    (found : tags.find? Tag.writesBrief = some written) :
    servesAsBrief opens tags = Tag.writesBrief := by
  have any : tags.any Tag.writesBrief = true :=
    List.any_eq_true.mpr ⟨written, List.mem_of_find?_eq_some found, List.find?_some found⟩
  funext tag
  rw [servesAsBrief, if_pos any]

theorem servesAsBrief_of_unwritten {tags : List Tag} (opens : Bool)
    (found : tags.find? Tag.writesBrief = none) :
    servesAsBrief opens tags = fun tag => opens && decide (tag.kind = .prose) := by
  have none : ¬tags.any Tag.writesBrief = true := by
    rw [List.any_eq_true]
    rintro ⟨tag, member, writes⟩
    exact List.find?_eq_none.mp found tag member writes
  funext tag
  rw [servesAsBrief, if_neg none]

/-- The first tag that may serve as the brief does; all others stay sections. -/
theorem Gathers.headAndSections (gathered : draft.Gathers symbol spans opens tags)
    (opening : opens = true → Tag.opensWithProse tags = true) :
    draft.headAndSections =
      (((tags.find? (servesAsBrief opens tags)).map (·.body)).getD [],
        (tags.eraseP (servesAsBrief opens tags)).filterMap Tag.section?) := by
  unfold Draft.headAndSections
  rw [gathered.brief_eq, gathered.leads_eq, gathered.sections_eq]
  cases found : tags.find? Tag.writesBrief with
  | some tag =>
    rw [servesAsBrief_of_written opens found]
    simp [found]
  | none =>
    have unwritten := List.find?_eq_none.mp found
    rw [servesAsBrief_of_unwritten opens found, List.eraseP_of_forall_not unwritten]
    cases opens with
    | false =>
      have none : tags.find? (fun tag => false && decide (tag.kind = .prose)) = none :=
        List.find?_eq_none.mpr (by simp)
      rw [none, List.eraseP_of_forall_not (by simp)]
      rfl
    | true =>
      obtain ⟨topics, prose, rest, rfl, allTopics, isProse⟩ :=
        Tag.opensWithProse_eq_true (opening rfl)
      let serves (tag : Tag) : Bool := true && decide (tag.kind = .prose)
      have ownProse : serves prose = true := by simp [serves, isProse]
      have noProse : ∀ tag ∈ topics, ¬serves tag = true := by
        intro tag member
        simpa [serves] using Tag.ne_prose_of_isTopic (allTopics tag member)
      have noSection : topics.filterMap Tag.section? = [] :=
        List.filterMap_eq_nil_iff.mpr fun tag member =>
          Tag.section?_of_isTopic (allTopics tag member)
      rw [find?_append_cons ownProse noProse, eraseP_append_cons ownProse noProse]
      simp [noSection, isProse, Tag.section?, Section.body]

end Draft

namespace Entry

/-- An entry, field by field, as a function of its symbol and its comments. -/
theorem ofComments_eq (symbol : Symbol) (comments : List ParsedComment) :
    ofComments symbol comments =
      let tags := comments.flatMap (·.tags)
      let serves := Draft.servesAsBrief (ParsedComment.opensWithProse comments) tags
      { key := symbol.name
        kind := symbol.kind
        brief := ((tags.find? serves).map (·.body)).getD []
        sections := (tags.eraseP serves).filterMap Tag.section?
        references := tags.flatMap (Tag.references symbol.name)
        anchor := symbol.anchor
        page := symbol.page
        flags := Flags.ofTags tags
        spans := comments.map (·.comment.span)
        tags := tags } := by
  have gathered := (Draft.start_gathers symbol).foldl_take comments
  simp only [List.nil_append, List.isEmpty_nil, Bool.true_and, Bool.false_or] at gathered
  have opening : ParsedComment.opensWithProse comments = true →
      Tag.opensWithProse (comments.flatMap (·.tags)) = true := by
    cases comments with
    | nil => simp [ParsedComment.opensWithProse]
    | cons first rest =>
      intro opens
      exact Tag.opensWithProse_append opens _
  rw [ofComments, Draft.finish, gathered.headAndSections opening, gathered.symbol_eq,
    gathered.references_eq, gathered.flags_eq, gathered.spans_eq, gathered.tags_eq]

theorem tags_infix_ofComments (symbol : Symbol) {comments : List ParsedComment}
    {parsed : ParsedComment} (member : parsed ∈ comments) :
    parsed.tags <:+: (ofComments symbol comments).tags := by
  obtain ⟨before, after, rfl⟩ := List.append_of_mem member
  rw [ofComments_eq]
  refine ⟨before.flatMap (·.tags), after.flatMap (·.tags), ?_⟩
  rw [List.flatMap_append, List.flatMap_cons, List.append_assoc]

/-- How the tags of an entry show in it: at most one tag supplies the brief, all others
make the sections in their order, and each may set a flag. -/
structure Shows (entry : Entry) (before : List Tag) (supplier : Option Tag) (after : List Tag) :
    Prop where
  tags_eq : entry.tags = before ++ supplier.toList ++ after
  supplies : ∀ tag, supplier = some tag → tag.kind = .prose ∨ tag.writesBrief = true
  brief_eq : entry.brief = (supplier.map (·.body)).getD []
  sections_eq : entry.sections = (before ++ after).filterMap Tag.section?
  flags_eq : entry.flags = Flags.ofTags entry.tags

theorem ofComments_shows (symbol : Symbol) (comments : List ParsedComment) :
    ∃ before supplier after, (ofComments symbol comments).Shows before supplier after := by
  rw [ofComments_eq]
  generalize comments.flatMap (·.tags) = tags
  generalize ParsedComment.opensWithProse comments = opens
  cases found : tags.find? (Draft.servesAsBrief opens tags) with
  | none =>
    have silent := List.find?_eq_none.mp found
    refine ⟨tags, none, [], ⟨by simp, by simp, ?_, ?_, rfl⟩⟩
    · simp only [found]
    · simp only [List.eraseP_of_forall_not silent, List.append_nil]
  | some supplier =>
    rcases exists_split_of_find? found with ⟨serves, before, after, parts, silent⟩
    have erased : tags.eraseP (Draft.servesAsBrief opens tags) = before ++ after :=
      (congrArg _ parts).trans (eraseP_append_cons serves silent)
    refine ⟨before, some supplier, after, ⟨by simp [parts], ?_, ?_, ?_, rfl⟩⟩
    · rintro tag ⟨⟩
      exact Draft.servesAsBrief_kind serves
    · simp only [found]
    · simp only [erased]

theorem of_mem_references_ofComments {symbol : Symbol} {comments : List ParsedComment}
    {reference : CrossReference} (member : reference ∈ (ofComments symbol comments).references) :
    reference.WrittenIn symbol.name := by
  rw [ofComments_eq] at member
  obtain ⟨tag, _, made⟩ := List.mem_flatMap.mp member
  exact Tag.of_mem_references made

end Entry

end DocAtlas
