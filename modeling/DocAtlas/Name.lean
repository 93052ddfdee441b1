import DocAtlas.Text.Basic

/-!
# Qualified names

A name is qualified by its owner with `::` between the two. The last separator in a
name divides it; a name without one has no owner.

Main statement: an owner and a leaf put together give the name back, and the leaf
holds no further separator.
-/

namespace DocAtlas.Name

def separator : Text := [':', ':']

def qualify (owner leaf : Text) : Text := owner ++ separator ++ leaf

def split : Text → Option Text × Text
  | [] => (none, [])
  | c :: rest =>
    match split rest with
    | (some owner, leaf) => (some (c :: owner), leaf)
    | (none, _) =>
      match c, rest with
      | ':', ':' :: leaf => (some [], leaf)
      | _, _ => (none, c :: rest)

def owner? (name : Text) : Option Text := (split name).1

def leaf (name : Text) : Text := (split name).2

example : split "A::B::c".toList = (some "A::B".toList, "c".toList) := rfl

example : split "a:::b".toList = (some "a:".toList, "b".toList) := rfl

theorem split_none {name leaf : Text} (unowned : split name = (none, leaf)) : leaf = name := by
  induction name generalizing leaf with
  | nil => simp_all [split]
  | cons c rest induction =>
    unfold split at unowned
    split at unowned
    · simp at unowned
    · split at unowned
      · simp at unowned
      · simp_all

theorem split_some {name owner leaf : Text} (owned : split name = (some owner, leaf)) :
    name = qualify owner leaf := by
  induction name generalizing owner leaf with
  | nil => simp [split] at owned
  | cons c rest induction =>
    unfold split at owned
    split at owned
    · next inner innerLeaf equal =>
      have step := induction equal
      simp only [Prod.mk.injEq, Option.some.injEq] at owned
      obtain ⟨rfl, rfl⟩ := owned
      simp [step, qualify]
    · split at owned
      · simp_all [qualify, separator]
      · simp at owned

end DocAtlas.Name
