/-!
# Storage keys

A stored file is identified by its kind, its content hash and its extension. The first two digits of
the hash form a directory of their own.
-/

namespace Beatmap

/-- The first two bytes of a text, if they are a character boundary; otherwise the whole text. -/
def shard : List Char → List Char
  | a :: rest =>
    if a.utf8Size = 2 then [a]
    else match rest with
      | b :: _ => if a.utf8Size = 1 ∧ b.utf8Size = 1 then [a, b] else a :: rest
      | [] => [a]
  | [] => []

/-- The key `kind/shard/fingerprint.extension`, without the dot if the extension is missing or
empty. -/
def storageKey (kind fingerprint : List Char) (extension : Option (List Char)) : List Char :=
  kind ++ '/' :: shard fingerprint ++ '/' :: fingerprint
    ++ match extension with
      | some (c :: rest) => '.' :: c :: rest
      | _ => []

end Beatmap
