import DocAtlas.Proofs.Entry.Content

/-!
# Entries of related comments

More comments behind those of an entry continue it: what it holds stays in front. The
same comments in another order rearrange it: it holds the same, in another order. Only
its brief and its sections may become different ones.
-/

namespace DocAtlas

theorem Flags.labels_subset {flags others : Flags}
    (deprecated : flags.deprecated = true → others.deprecated = true)
    (internal : flags.internal = true → others.internal = true) :
    flags.labels ⊆ others.labels := by
  have kept {first second : Bool} (implied : first = true → second = true) (label : Text) :
      (if first then [label] else []) ⊆ if second then [label] else [] := by
    cases first with
    | false => exact List.nil_subset _
    | true =>
      rw [implied rfl]
      exact List.Subset.refl _
  intro label member
  rcases List.mem_append.mp member with inside | inside
  · exact List.mem_append_left _ (kept deprecated _ inside)
  · exact List.mem_append_right _ (kept internal _ inside)

theorem Flags.ofTags_perm {tags others : List Tag} (shuffled : tags.Perm others) :
    ofTags tags = ofTags others := by
  simp only [ofTags, foldl_add, shuffled.any_eq]

namespace Entry

/-- An entry and one about the same symbol that holds the same, with more behind it. A
written brief is the brief of both. -/
structure Continues (entry later : Entry) : Prop where
  key : later.key = entry.key
  kind : later.kind = entry.kind
  href : later.href = entry.href
  tags : entry.tags <+: later.tags
  spans : entry.spans <+: later.spans
  flags : entry.flags.labels ⊆ later.flags.labels
  brief : ∀ tag ∈ entry.tags, tag.kind = .brief → tag.body ≠ [] → later.brief = entry.brief

/-- An entry and one that holds the same in another order. -/
structure Rearranges (entry other : Entry) : Prop where
  key : other.key = entry.key
  kind : other.kind = entry.kind
  href : other.href = entry.href
  flags : other.flags = entry.flags
  tags : other.tags.Perm entry.tags
  spans : other.spans.Perm entry.spans
  references : other.references.Perm entry.references

theorem Rearranges.refl (entry : Entry) : entry.Rearranges entry :=
  ⟨rfl, rfl, rfl, rfl, .refl _, .refl _, .refl _⟩

theorem Rearranges.scope? {entry other : Entry} (rearranges : entry.Rearranges other) :
    other.scope? = entry.scope? := by
  rw [Entry.scope?, Entry.scope?, rearranges.key, rearranges.kind]

theorem brief_of_written (symbol : Symbol) {comments : List ParsedComment} {brief : Tag}
    (found : (comments.flatMap (·.tags)).find? Tag.writesBrief = some brief) :
    (ofComments symbol comments).brief = brief.body := by
  simp only [ofComments_eq, Draft.servesAsBrief_of_written _ found, found, Option.map_some,
    Option.getD_some]

/-- A written brief stays the brief, whatever is written behind it. -/
theorem brief_append (symbol : Symbol) {comments : List ParsedComment} {tag : Tag}
    (inside : tag ∈ comments.flatMap (·.tags)) (writes : tag.writesBrief = true)
    (more : List ParsedComment) :
    (ofComments symbol (comments ++ more)).brief = (ofComments symbol comments).brief := by
  have written : ((comments.flatMap (·.tags)).find? Tag.writesBrief).isSome = true :=
    List.find?_isSome.mpr ⟨tag, inside, writes⟩
  rcases Option.isSome_iff_exists.mp written with ⟨brief, found⟩
  have still : ((comments ++ more).flatMap (·.tags)).find? Tag.writesBrief = some brief := by
    rw [List.flatMap_append, List.find?_append, found, Option.some_or]
  rw [brief_of_written symbol found, brief_of_written symbol still]

theorem continues_append (symbol : Symbol) (comments more : List ParsedComment) :
    (ofComments symbol comments).Continues (ofComments symbol (comments ++ more)) := by
  have sameBrief : ∀ tag ∈ comments.flatMap (·.tags), tag.kind = .brief → tag.body ≠ [] →
      (ofComments symbol (comments ++ more)).brief = (ofComments symbol comments).brief :=
    fun tag inside brief written =>
      brief_append symbol inside (decide_eq_true ⟨brief, written⟩) more
  rw [ofComments_eq, ofComments_eq] at sameBrief ⊢
  simp only [List.flatMap_append, List.map_append] at sameBrief ⊢
  constructor
  case key | kind | href => rfl
  case tags | spans => exact List.prefix_append _ _
  case brief => exact sameBrief
  case flags =>
    apply Flags.labels_subset
    · simp only [Flags.deprecated_ofTags]
      rintro ⟨tag, member, deprecated⟩
      exact ⟨tag, List.mem_append_left _ member, deprecated⟩
    · simp only [Flags.internal_ofTags]
      rintro ⟨tag, member, internal⟩
      exact ⟨tag, List.mem_append_left _ member, internal⟩

theorem references_append (symbol : Symbol) (comments more : List ParsedComment) :
    (ofComments symbol comments).references <+:
      (ofComments symbol (comments ++ more)).references := by
  simp only [ofComments_eq, List.flatMap_append]
  exact List.prefix_append _ _

theorem rearranges_of_perm (symbol : Symbol) {comments others : List ParsedComment}
    (shuffled : others.Perm comments) :
    (ofComments symbol comments).Rearranges (ofComments symbol others) := by
  have tags : (others.flatMap (·.tags)).Perm (comments.flatMap (·.tags)) :=
    shuffled.flatMap_right _
  rw [ofComments_eq, ofComments_eq]
  constructor
  case key | kind | href => rfl
  case flags => exact Flags.ofTags_perm tags
  case tags => exact tags
  case spans => exact shuffled.map _
  case references => exact tags.flatMap_right _

end Entry

end DocAtlas
