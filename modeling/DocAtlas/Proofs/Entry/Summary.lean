import DocAtlas.Proofs.Entry.Content

/-!
# The summary of an entry

Of all tags of the comments about a symbol, at most one is the summary of its entry: the
first written brief that says something or, where there is none, the prose that the first
comment opens with. What else has something to show is shown by one section each, in the
order of the tags.
-/

namespace DocAtlas

namespace Tag

inductive ShownAs (tag : Tag) : Section → Prop
  | prose : tag.kind = .prose → ShownAs tag (.prose tag.body)
  | heading : tag.kind = .heading →
      ShownAs tag (.heading tag.argument tag.headingLevel tag.body)
  | since {version : Text} : tag.kind = .since → tag.argument = some version →
      ShownAs tag (.since version)
  | module {name : Text} : tag.kind = .module → tag.argument = some name →
      ShownAs tag (.module name)
  | seeAlso : tag.kind = .seeAlso → tag.targets ≠ [] → ShownAs tag (.seeAlso tag.targets)
  | brief : tag.kind = .brief → tag.body ≠ [] → ShownAs tag (.brief tag.body)
  | note : tag.kind = .note → ShownAs tag (.note tag.body)
  | warning : tag.kind = .warning → ShownAs tag (.warning tag.body)
  | code : tag.kind = .code → ShownAs tag (.code tag.body)
  | command : tag.kind = .unknown → tag.body = [] →
      ShownAs tag (.unknown tag.marker [.text ('\\' :: tag.marker)])
  | paragraph : tag.kind = .unknown → tag.body ≠ [] →
      ShownAs tag (.unknown tag.marker (.text ('\\' :: tag.marker) :: .text [' '] :: tag.body))

def bearsContent (tag : Tag) : Bool :=
  match tag.kind with
  | .prose | .heading | .note | .warning | .code | .unknown => true
  | .since | .module => tag.argument.isSome
  | .seeAlso => !tag.targets.isEmpty
  | .brief => !tag.body.isEmpty
  | _ => false

theorem section?_of_not_bearsContent {tag : Tag} (silent : tag.bearsContent = false) :
    tag.section? = none := by
  cases kind : tag.kind <;> simp_all [section?, bearsContent]

theorem shownAs_section? {tag : Tag} (bears : tag.bearsContent = true) :
    ∃ made, tag.section? = some made ∧ tag.ShownAs made := by
  cases kind : tag.kind with
  | prose => exact ⟨_, by simp [section?, kind], .prose kind⟩
  | heading => exact ⟨_, by simp [section?, kind], .heading kind⟩
  | note => exact ⟨_, by simp [section?, kind], .note kind⟩
  | warning => exact ⟨_, by simp [section?, kind], .warning kind⟩
  | code => exact ⟨_, by simp [section?, kind], .code kind⟩
  | since =>
    have present : tag.argument.isSome = true := by simpa [bearsContent, kind] using bears
    rcases Option.isSome_iff_exists.mp present with ⟨version, argument⟩
    exact ⟨_, by simp [section?, kind, argument], .since kind argument⟩
  | module =>
    have present : tag.argument.isSome = true := by simpa [bearsContent, kind] using bears
    rcases Option.isSome_iff_exists.mp present with ⟨name, argument⟩
    exact ⟨_, by simp [section?, kind, argument], .module kind argument⟩
  | seeAlso =>
    have nonempty : tag.targets ≠ [] := by simpa [bearsContent, kind] using bears
    exact ⟨_, by simp [section?, kind, nonempty], .seeAlso kind nonempty⟩
  | brief =>
    have nonempty : tag.body ≠ [] := by simpa [bearsContent, kind] using bears
    exact ⟨_, by simp [section?, kind, nonempty], .brief kind nonempty⟩
  | unknown =>
    by_cases empty : tag.body = []
    · exact ⟨_, by simp [section?, kind, unknownBody, empty], .command kind empty⟩
    · exact ⟨_, by simp [section?, kind, unknownBody, empty], .paragraph kind empty⟩
  | internal | deprecated | classTopic | structTopic | namespaceTopic | propertyTopic
  | functionTopic | variableTopic | enumTopic | typedefTopic | macroTopic =>
    simp [bearsContent, kind] at bears

end Tag

/-- Which of the tags of some comments is the summary, with those before and behind it. -/
inductive Summary (comments : List ParsedComment) : List Tag → Option Tag → List Tag → Prop
  | written {before : List Tag} {brief : Tag} {after : List Tag} :
      comments.flatMap (·.tags) = before ++ brief :: after →
      brief.kind = .brief → brief.body ≠ [] →
      (∀ tag ∈ before, ¬(tag.kind = .brief ∧ tag.body ≠ [])) →
      Summary comments before (some brief) after
  | leading {first : ParsedComment} {rest : List ParsedComment} {before : List Tag} {prose : Tag}
      {after : List Tag} :
      (∀ tag ∈ comments.flatMap (·.tags), ¬(tag.kind = .brief ∧ tag.body ≠ [])) →
      comments = first :: rest → first.tags = before ++ prose :: after →
      prose.kind = .prose → (∀ tag ∈ before, tag.kind.isTopic = true) →
      Summary comments before (some prose) (after ++ rest.flatMap (·.tags))
  | nothing :
      (∀ tag ∈ comments.flatMap (·.tags), ¬(tag.kind = .brief ∧ tag.body ≠ [])) →
      (∀ first rest before prose after, comments = first :: rest →
        first.tags = before ++ prose :: after → prose.kind = .prose →
          ∃ tag ∈ before, tag.kind.isTopic = false ∧ tag.kind ≠ .prose) →
      Summary comments (comments.flatMap (·.tags)) none []

namespace Tag

theorem not_writesBrief {tag : Tag} :
    ¬tag.writesBrief = true ↔ ¬(tag.kind = .brief ∧ tag.body ≠ []) := by
  rw [writesBrief, decide_eq_true_eq]

theorem blocked_of_not_opensWithProse {tags before after : List Tag} {prose : Tag}
    (closed : opensWithProse tags = false) (parts : tags = before ++ prose :: after)
    (isProse : prose.kind = .prose) :
    ∃ tag ∈ before, tag.kind.isTopic = false ∧ tag.kind ≠ .prose := by
  induction before generalizing tags with
  | nil =>
    rw [parts] at closed
    simp [opensWithProse, isProse] at closed
  | cons tag before induction =>
    rw [parts, List.cons_append, opensWithProse, Bool.or_eq_false_iff,
      decide_eq_false_iff_not] at closed
    cases topic : tag.kind.isTopic with
    | false => exact ⟨tag, List.mem_cons_self, topic, closed.1⟩
    | true =>
      rw [topic, Bool.true_and] at closed
      rcases induction closed.2 rfl with ⟨other, inside, blocks⟩
      exact ⟨other, List.mem_cons_of_mem tag inside, blocks⟩

end Tag

namespace Draft

theorem summary_of_written {comments : List ParsedComment} {brief : Tag}
    (found : (comments.flatMap (·.tags)).find? Tag.writesBrief = some brief) :
    ∃ before after, Summary comments before (some brief) after ∧
      (comments.flatMap (·.tags)).eraseP Tag.writesBrief = before ++ after := by
  rcases exists_split_of_find? found with ⟨writes, before, after, parts, silent⟩
  have own := of_decide_eq_true writes
  refine ⟨before, after, .written parts own.1 own.2 ?_, ?_⟩
  · exact fun tag member => Tag.not_writesBrief.mp (silent tag member)
  · rw [parts, eraseP_append_cons writes silent]

/-- What serves as the brief is the summary, and it alone is taken from the tags. -/
theorem summary_servesAsBrief (comments : List ParsedComment) :
    let tags := comments.flatMap (·.tags)
    let serves := servesAsBrief (ParsedComment.opensWithProse comments) tags
    ∃ before supplier after, Summary comments before supplier after ∧
      tags.find? serves = supplier ∧ tags.eraseP serves = before ++ after := by
  intro tags serves
  cases found : tags.find? Tag.writesBrief with
  | some brief =>
    rcases summary_of_written found with ⟨before, after, summary, erased⟩
    have same : serves = Tag.writesBrief := servesAsBrief_of_written _ found
    rw [same]
    exact ⟨before, some brief, after, summary, found, erased⟩
  | none =>
    have unwritten : ∀ tag ∈ tags, ¬(tag.kind = .brief ∧ tag.body ≠ []) := fun tag member =>
      Tag.not_writesBrief.mp (List.find?_eq_none.mp found tag member)
    have same (tag : Tag) : serves tag =
        (ParsedComment.opensWithProse comments && decide (tag.kind = .prose)) :=
      congrFun (servesAsBrief_of_unwritten _ found) tag
    -- Without a written brief, all depends on how the first comment begins.
    cases opens : ParsedComment.opensWithProse comments with
    | false =>
      have never : ∀ tag ∈ tags, ¬serves tag = true := by simp [same, opens]
      refine ⟨tags, none, [], ?_, List.find?_eq_none.mpr never, ?_⟩
      · apply Summary.nothing unwritten
        rintro first rest before prose after rfl
        exact Tag.blocked_of_not_opensWithProse opens
      · rw [List.eraseP_of_forall_not never, List.append_nil]
    | true =>
      cases comments with
      | nil => cases opens
      | cons first rest =>
        rcases Tag.opensWithProse_eq_true opens with ⟨before, prose, after, parts, topics, isProse⟩
        have servesProse : serves prose = true := by simp [same, opens, isProse]
        have never : ∀ tag ∈ before, ¬serves tag = true := by
          intro tag member
          simpa [same, opens] using Tag.ne_prose_of_isTopic (topics tag member)
        have split : tags = before ++ prose :: (after ++ rest.flatMap (·.tags)) := by
          simp [tags, parts]
        refine ⟨before, some prose, _, .leading unwritten rfl parts isProse topics, ?_, ?_⟩
        · rw [split, find?_append_cons servesProse never]
        · rw [split, eraseP_append_cons servesProse never]

end Draft

namespace Entry

theorem sections_shown (tags : List Tag) :
    List.Forall₂ Tag.ShownAs (tags.filter Tag.bearsContent) (tags.filterMap Tag.section?) :=
  forall₂_filterMap (fun _ silent => Tag.section?_of_not_bearsContent silent)
    (fun _ bears => Tag.shownAs_section? bears) tags

/-- The entry of some comments: its brief is the summary, the tags around the summary that
bear content make the sections, and flags and references come from all tags in order. -/
theorem ofComments_summarizes (symbol : Symbol) (comments : List ParsedComment) :
    let entry := ofComments symbol comments
    let tags := comments.flatMap (·.tags)
    (∃ before supplier after, Summary comments before supplier after ∧
      entry.brief = (supplier.map (·.body)).getD [] ∧
      List.Forall₂ Tag.ShownAs ((before ++ after).filter Tag.bearsContent) entry.sections) ∧
    (entry.flags.deprecated = true ↔ ∃ tag ∈ tags, tag.kind = .deprecated) ∧
    (entry.flags.internal = true ↔ ∃ tag ∈ tags, tag.kind = .internal) ∧
    entry.references = tags.flatMap fun tag =>
      (Segment.targets tag.body).map (fun target =>
        ⟨symbol.name, target, .inline, some tag.file, some tag.line, .unresolved⟩) ++
      if tag.kind = .seeAlso then tag.targets.map fun target =>
        ⟨symbol.name, target, .seeAlso, some tag.file, some tag.line, .unresolved⟩
      else [] := by
  intro entry tags
  have parts : entry = _ := ofComments_eq symbol comments
  rcases Draft.summary_servesAsBrief comments with
    ⟨before, supplier, after, summary, found, erased⟩
  rw [parts]
  refine ⟨⟨before, supplier, after, summary, ?_, ?_⟩, Flags.deprecated_ofTags,
    Flags.internal_ofTags, rfl⟩
  · simp only [found]
  · simp only [erased]
    exact sections_shown (before ++ after)

end Entry

end DocAtlas
