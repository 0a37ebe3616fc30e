/-!
# Replacement — every occurrence of one text by another

Occurrences are taken from left to right and do not overlap.
-/
namespace ReactSite
namespace Text

/-- Replaces the occurrences of `old`; the first `skip` characters belong to an occurrence already replaced. -/
def replaceFrom (old new : List Char) : Nat → List Char → List Char
  | _, [] => []
  | skip + 1, _ :: rest => replaceFrom old new skip rest
  | 0, c :: rest =>
    if old.isPrefixOf (c :: rest) then new ++ replaceFrom old new (old.length - 1) rest
    else c :: replaceFrom old new 0 rest

/-- **Every occurrence of `old`, which is not empty, replaced by `new`.** -/
def replaceAll (old new : List Char) (s : List Char) : List Char :=
  replaceFrom old new 0 s

/-- The pieces of a text between the occurrences of a separator character. -/
def splitAt (sep : Char) : List Char → List (List Char)
  | [] => [[]]
  | c :: rest =>
    if c = sep then [] :: splitAt sep rest
    else match splitAt sep rest with
      | piece :: pieces => (c :: piece) :: pieces
      | []              => [[c]]

end Text
end ReactSite
