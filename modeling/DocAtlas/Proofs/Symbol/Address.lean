import DocAtlas.Entry.Draft
import DocAtlas.Proofs.Entry.Content
import DocAtlas.Proofs.Name.Spelling
import DocAtlas.Proofs.Text.Lowercase

/-!
# Where symbols are documented

The page and the anchor of a symbol follow from its name and its kind, unless its metadata
names a page. Main statement: two symbols whose names differ by more than the case of their
letters share a link only if one of two fixed words is taken for a name. `details` is the
anchor of every class and namespace, and may be the leaf of a member; `index` is the page of
what has no owner, and may be an owner.
-/

namespace DocAtlas

/-! ## Names as parts of links -/

namespace Name

def IsPathText (text : Text) : Prop := ∀ c ∈ text, isPathPart c = true

variable {name owner : Text}

theorem name_eq_qualify (owned : owner? name = some owner) : name = qualify owner (leaf name) :=
  split_some (Prod.ext owned rfl)

theorem leaf_of_unowned (unowned : owner? name = none) : leaf name = name :=
  split_none (Prod.ext unowned rfl)

theorem IsPathText.parts (path : IsPathText name) (owned : owner? name = some owner) :
    IsPathText owner ∧ IsPathText (leaf name) := by
  rw [name_eq_qualify owned, qualify, List.append_assoc] at path
  have parts := List.forall_mem_append.mp path
  exact ⟨parts.1, (List.forall_mem_append.mp parts.2).2⟩

theorem IsPathText.leaf (path : IsPathText name) : IsPathText (leaf name) := by
  cases owned : owner? name with
  | none => rwa [leaf_of_unowned owned]
  | some owner => exact (path.parts owned).2

theorem IsPathText.isAscii (path : IsPathText name) : Text.IsAscii name := by
  intro c member
  have code := code_of_isPathPart (path c member)
  omega

theorem IsPathText.larger (path : IsPathText name) {low : Char} (small : low.toNat < 48) :
    ∀ c ∈ name, low.toNat < c.toNat := by
  intro c member
  have code := code_of_isPathPart (path c member)
  omega

theorem IsPathText.not_mem (path : IsPathText name) {low : Char} (small : low.toNat < 48) :
    low ∉ name :=
  fun member => Nat.lt_irrefl _ (path.larger small low member)

theorem IsPathText.not_mem_lower (path : IsPathText name) {low : Char} (small : low.toNat < 48) :
    low ∉ Text.lower name :=
  Text.not_mem_lower path.isAscii (path.larger small)

theorem lower_of_owned (path : IsPathText name) (owned : owner? name = some owner) :
    Text.lower name = Text.lower owner ++ Text.lower separator ++ Text.lower (leaf name) := by
  have whole : Text.IsAscii (owner ++ separator ++ leaf name) := by
    have ascii := path.isAscii
    rwa [name_eq_qualify owned, qualify] at ascii
  have front := (List.forall_mem_append.mp whole).1
  conv => lhs; rw [name_eq_qualify owned, qualify]
  rw [Text.lower_append whole, Text.lower_append front]

end Name

open Name (IsPathText)

namespace SymbolKind

theorem append_anchorSuffix_inj {first second : SymbolKind} {leaf other : Text}
    (plain : '-' ∉ leaf) (alsoPlain : '-' ∉ other) :
    leaf ++ first.anchorSuffix = other ++ second.anchorSuffix ↔
      leaf = other ∧ first.anchorSuffix = second.anchorSuffix := by
  have dashed (kind : SymbolKind) : ∀ c ∈ kind.anchorSuffix.head?, (c != '-') = false := by
    have first : kind.anchorSuffix.head?.all (· == '-') = true := by cases kind <;> decide
    intro c member
    rw [Option.mem_def.mp member, Option.all_some] at first
    rw [bne, first, Bool.not_true]
  have inside {text : Text} (plain : '-' ∉ text) : ∀ c ∈ text, (c != '-') = true := by
    intro c member
    exact bne_iff_ne.mpr fun equal => plain (equal ▸ member)
  constructor
  · intro equal
    have same : leaf = other := by
      rw [← takeWhile_append_stop (inside plain) (dashed first), equal,
        takeWhile_append_stop (inside alsoPlain) (dashed second)]
    rw [same] at equal
    exact ⟨same, List.append_cancel_left equal⟩
  · intro same
    rw [same.1, same.2]

end SymbolKind

namespace Symbol

/-! ## Pages -/

def undashed (text : Text) : Text :=
  text.flatMap fun c => if c = '-' then Name.separator else [c]

theorem undashed_dashed {text : Text} (plain : '-' ∉ text) : undashed (dashed text) = text := by
  fun_induction dashed text with
  | case1 rest induction =>
    simp only [List.mem_cons, not_or] at plain
    have same := induction plain.2.2
    rw [undashed] at same ⊢
    rw [List.flatMap_cons, same]
    rfl
  | case2 c rest _ induction =>
    rw [List.mem_cons, not_or] at plain
    have same := induction plain.2
    rw [undashed] at same ⊢
    rw [List.flatMap_cons, same, if_neg (Ne.symm plain.1), List.singleton_append]
  | case3 => rfl

theorem mem_of_mem_dashed {text : Text} {c : Char} (member : c ∈ dashed text) :
    c = '-' ∨ c ∈ text := by
  fun_induction dashed text with
  | case1 rest induction =>
    rcases List.mem_cons.mp member with here | later
    · exact .inl here
    · exact (induction later).imp_right fun inside => by simp [inside]
  | case2 first rest _ induction =>
    rcases List.mem_cons.mp member with here | later
    · exact .inr (here ▸ List.mem_cons_self)
    · exact (induction later).imp_right (List.mem_cons_of_mem first)
  | case3 => exact .inr member

theorem pageOfScope_inj {first second : Text} (path : IsPathText first)
    (alsoPath : IsPathText second) :
    pageOfScope first = pageOfScope second ↔ Text.lower first = Text.lower second := by
  constructor
  · intro equal
    have same := congrArg undashed (List.append_cancel_right equal)
    rwa [undashed_dashed (path.not_mem_lower (by decide)),
      undashed_dashed (alsoPath.not_mem_lower (by decide))] at same
  · intro same
    rw [pageOfScope, pageOfScope, same]

theorem hash_not_mem_pageOfScope {scope : Text} (path : IsPathText scope) :
    '#' ∉ pageOfScope scope := by
  intro member
  rcases List.mem_append.mp member with front | extension
  · rcases mem_of_mem_dashed front with dash | inside
    · exact absurd dash (by decide)
    · exact path.not_mem_lower (by decide) inside
  · exact absurd extension (by decide)

/-! ## Links -/

def href (symbol : Symbol) : Text := symbol.page ++ '#' :: symbol.anchor

theorem key_ofComments (symbol : Symbol) (comments : List ParsedComment) :
    (Entry.ofComments symbol comments).key = symbol.name := by
  rw [Entry.ofComments_eq]

theorem href_ofComments (symbol : Symbol) (comments : List ParsedComment) :
    (Entry.ofComments symbol comments).href = symbol.href := by
  rw [Entry.ofComments_eq]
  rfl

/-- A symbol whose place follows from its name, which is a path of identifiers. -/
structure PlacedByName (symbol : Symbol) : Prop where
  path : Name.Path symbol.name
  noPage : symbol.metadataText? "page" = none

def indexScope : Text := "index"

def detailsAnchor : Text := "details"

/-- The scope that the page of a symbol is named for; the index page is named as the page of a
scope would be. -/
def pageName (symbol : Symbol) : Text := symbol.pageScope?.getD indexScope

/-- Two symbols that have the same link because a word of the layout is taken for a name. -/
inductive Clashes : Symbol → Symbol → Prop
  | details {scope member : Symbol} : scope.kind.isScope = true →
      member.kind.isScope = false → member.kind.anchorSuffix = [] →
      Name.leaf member.name = detailsAnchor →
      Text.lower scope.name = Text.lower member.pageName → Clashes scope member
  | index {free member : Symbol} {owner : Text} : free.kind.isScope = false →
      member.kind.isScope = false → free.kind.anchorSuffix = member.kind.anchorSuffix →
      free.owner? = none → member.owner? = some owner → Text.lower owner = indexScope →
      Name.leaf member.name = free.name → Clashes free member

variable {first second scope member : Symbol}

theorem pageName_of_isScope (isScope : scope.kind.isScope = true) :
    scope.pageName = scope.name := by
  rw [pageName, pageScope?, if_pos isScope, Option.getD_some]

theorem pageName_of_member (isMember : member.kind.isScope = false) :
    member.pageName = member.owner?.getD indexScope := by
  rw [pageName, pageScope?, if_neg (Bool.eq_false_iff.mp isMember)]

theorem anchor_of_isScope (isScope : scope.kind.isScope = true) :
    scope.anchor = detailsAnchor := by
  rw [anchor, if_pos isScope]
  rfl

theorem anchor_of_member (isMember : member.kind.isScope = false) :
    member.anchor = Name.leaf member.name ++ member.kind.anchorSuffix := by
  rw [anchor, if_neg (Bool.eq_false_iff.mp isMember)]

theorem Clashes.shared (clash : first.Clashes second) :
    Text.lower first.pageName = Text.lower second.pageName ∧ first.anchor = second.anchor := by
  cases clash with
  | details isScope isMember bare leaf page =>
    rw [pageName_of_isScope isScope, anchor_of_isScope isScope, anchor_of_member isMember, leaf,
      bare, List.append_nil]
    exact ⟨page, rfl⟩
  | index isMember alsoMember suffix unowned owned page leaf =>
    rw [pageName_of_member isMember, pageName_of_member alsoMember, unowned, owned,
      anchor_of_member isMember, anchor_of_member alsoMember, leaf, suffix,
      Name.leaf_of_unowned unowned]
    exact ⟨page.symm, rfl⟩

namespace PlacedByName

theorem isPathText (placed : first.PlacedByName) : IsPathText first.name := placed.path.forall_mem

theorem isPathText_pageName (placed : first.PlacedByName) : IsPathText first.pageName := by
  cases isScope : first.kind.isScope with
  | true =>
    rw [pageName_of_isScope isScope]
    exact placed.isPathText
  | false =>
    rw [pageName_of_member isScope]
    cases owned : first.owner? with
    | none =>
      rw [Option.getD_none]
      exact List.all_eq_true.mp (by decide)
    | some owner => exact (placed.isPathText.parts owned).1

theorem page_eq (placed : first.PlacedByName) : first.page = pageOfScope first.pageName := by
  rw [page, placed.noPage, pageName]
  cases first.pageScope? <;> rfl

theorem dash_not_mem_leaf (placed : first.PlacedByName) : '-' ∉ Name.leaf first.name :=
  placed.isPathText.leaf.not_mem (by decide)

theorem hash_not_mem_anchor (placed : first.PlacedByName) : '#' ∉ first.anchor := by
  cases isScope : first.kind.isScope with
  | true =>
    rw [anchor_of_isScope isScope]
    decide
  | false =>
    rw [anchor_of_member isScope, List.mem_append, not_or]
    refine ⟨placed.isPathText.leaf.not_mem (by decide), ?_⟩
    cases first.kind <;> decide

theorem href_eq_iff (placed : first.PlacedByName) (alsoPlaced : second.PlacedByName) :
    first.href = second.href ↔
      Text.lower first.pageName = Text.lower second.pageName ∧ first.anchor = second.anchor := by
  have page : '#' ∉ first.page := by
    rw [placed.page_eq]
    exact hash_not_mem_pageOfScope placed.isPathText_pageName
  rw [href, href, List.append_cons_inj_of_notMem page placed.hash_not_mem_anchor, placed.page_eq,
    alsoPlaced.page_eq, pageOfScope_inj placed.isPathText_pageName alsoPlaced.isPathText_pageName]
  simp only [true_and]

/-! ## What shares a link -/

theorem clashes_of_isScope (placed : member.PlacedByName) (isScope : scope.kind.isScope = true)
    (isMember : member.kind.isScope = false)
    (page : Text.lower scope.pageName = Text.lower member.pageName)
    (anchor : scope.anchor = member.anchor) : scope.Clashes member := by
  have bare : Name.leaf member.name ++ member.kind.anchorSuffix =
      detailsAnchor ++ SymbolKind.classKind.anchorSuffix := by
    rw [← anchor_of_member isMember, ← anchor, anchor_of_isScope isScope]
    rfl
  have parts := (SymbolKind.append_anchorSuffix_inj placed.dash_not_mem_leaf (by decide)).mp bare
  rw [pageName_of_isScope isScope] at page
  exact .details isScope isMember parts.2 parts.1 page

theorem clashes_of_unowned (different : Text.lower first.name ≠ Text.lower second.name)
    (isMember : first.kind.isScope = false) (alsoMember : second.kind.isScope = false)
    (page : Text.lower first.pageName = Text.lower second.pageName)
    (leaf : Name.leaf first.name = Name.leaf second.name)
    (suffix : first.kind.anchorSuffix = second.kind.anchorSuffix)
    (unowned : first.owner? = none) : first.Clashes second := by
  rw [Name.leaf_of_unowned unowned] at leaf
  cases owned : second.owner? with
  | none =>
    rw [Name.leaf_of_unowned owned] at leaf
    exact absurd (congrArg Text.lower leaf) different
  | some owner =>
    rw [pageName_of_member isMember, pageName_of_member alsoMember, unowned, owned] at page
    exact .index isMember alsoMember suffix unowned owned page.symm leaf.symm

theorem lower_owner_ne (placed : first.PlacedByName) (alsoPlaced : second.PlacedByName)
    (different : Text.lower first.name ≠ Text.lower second.name)
    (leaf : Name.leaf first.name = Name.leaf second.name) {owner other : Text}
    (owned : first.owner? = some owner) (alsoOwned : second.owner? = some other) :
    Text.lower owner ≠ Text.lower other := by
  intro same
  apply different
  rw [Name.lower_of_owned placed.isPathText owned,
    Name.lower_of_owned alsoPlaced.isPathText alsoOwned, same, leaf]

theorem clashes_of_members (placed : first.PlacedByName) (alsoPlaced : second.PlacedByName)
    (different : Text.lower first.name ≠ Text.lower second.name)
    (isMember : first.kind.isScope = false) (alsoMember : second.kind.isScope = false)
    (page : Text.lower first.pageName = Text.lower second.pageName)
    (anchor : first.anchor = second.anchor) : first.Clashes second ∨ second.Clashes first := by
  rw [anchor_of_member isMember, anchor_of_member alsoMember,
    SymbolKind.append_anchorSuffix_inj placed.dash_not_mem_leaf alsoPlaced.dash_not_mem_leaf]
    at anchor
  cases owned : first.owner? with
  | none =>
    exact .inl (clashes_of_unowned different isMember alsoMember page anchor.1 anchor.2 owned)
  | some owner =>
    cases alsoOwned : second.owner? with
    | none =>
      exact .inr (clashes_of_unowned different.symm alsoMember isMember page.symm anchor.1.symm
        anchor.2.symm alsoOwned)
    | some other =>
      rw [pageName_of_member isMember, pageName_of_member alsoMember, owned, alsoOwned] at page
      exact absurd page (placed.lower_owner_ne alsoPlaced different anchor.1 owned alsoOwned)

theorem clashes_of_shared (placed : first.PlacedByName) (alsoPlaced : second.PlacedByName)
    (different : Text.lower first.name ≠ Text.lower second.name)
    (page : Text.lower first.pageName = Text.lower second.pageName)
    (anchor : first.anchor = second.anchor) : first.Clashes second ∨ second.Clashes first := by
  cases isScope : first.kind.isScope with
  | true =>
    cases alsoScope : second.kind.isScope with
    | true =>
      rw [pageName_of_isScope isScope, pageName_of_isScope alsoScope] at page
      exact absurd page different
    | false => exact .inl (alsoPlaced.clashes_of_isScope isScope alsoScope page anchor)
  | false =>
    cases alsoScope : second.kind.isScope with
    | true => exact .inr (placed.clashes_of_isScope alsoScope isScope page.symm anchor.symm)
    | false => exact placed.clashes_of_members alsoPlaced different isScope alsoScope page anchor

/-- Two symbols have one link exactly if they clash. -/
theorem href_eq_iff_clashes (placed : first.PlacedByName) (alsoPlaced : second.PlacedByName)
    (different : Text.lower first.name ≠ Text.lower second.name) :
    first.href = second.href ↔ first.Clashes second ∨ second.Clashes first := by
  rw [placed.href_eq_iff alsoPlaced]
  constructor
  · exact fun shared => placed.clashes_of_shared alsoPlaced different shared.1 shared.2
  · intro clash
    cases clash with
    | inl clash => exact clash.shared
    | inr clash => exact ⟨clash.shared.1.symm, clash.shared.2.symm⟩

end PlacedByName

end Symbol

end DocAtlas
