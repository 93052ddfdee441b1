import DocAtlas.Name

/-!
# Looking a name up

Which of some keys a written name means. A key that is the name itself is always
meant. A name without an owner means the key of that leaf in the scope it is written
in, or else the only key with that leaf. A qualified name never means another key.
-/

namespace DocAtlas.Name

def scoped? (name : Text) (keys : List Text) (scope : Option Text) : Option Text :=
  match scope with
  | none => none
  | some scope => if qualify scope name ∈ keys then some (qualify scope name) else none

def only? (name : Text) (keys : List Text) : Option Text :=
  match keys.filter fun key => leaf key == name with
  | [key] => some key
  | _ => none

def resolve? (name : Text) (keys : List Text) (scope : Option Text) : Option Text :=
  if name ∈ keys then some name
  else
    match owner? name with
    | some _ => none
    | none => (scoped? name keys scope).or (only? name keys)

end DocAtlas.Name
