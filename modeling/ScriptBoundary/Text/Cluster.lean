import ScriptBoundary.Text.Cluster.Role

/-!
Clusters of characters: what a reader takes for one character, such as a letter with its accents, a
Hangul syllable or a flag. The clusters of a text, put together, are the text.
-/

namespace ScriptBoundary.Text

namespace Cluster

/-! What a text ends in. Its roles are listed from its end. -/

/-- A consonant, then marks with a linker among them. -/
def endsLinked (before : List Role) : Bool :=
  (before.takeWhile Role.isBetweenConsonants).contains .linker &&
    (before.dropWhile Role.isBetweenConsonants).head? = some .consonant

/-- A pictograph, then extenders, then a joiner. -/
def endsChained : List Role → Bool
  | .joiner :: earlier => (earlier.dropWhile Role.isExtending).head? = some .pictograph
  | _ => false

/-- Halves of flags are paired from the first. -/
def endsInHalfFlag (before : List Role) : Bool :=
  (before.takeWhile (· = .regional)).length % 2 = 1

/-- A character of the role `next` belongs to the cluster that the text before it ends in. -/
def joins (before : List Role) (next : Role) : Bool :=
  match before with
  | [] => false
  | last :: _ =>
    if last.standsAlone || next.standsAlone then last = .carriageReturn && next = .lineFeed
    else
      next.isExtending || next = .joiner || next = .spacingMark || last = .preceding ||
      last.inSyllable next || (next = .consonant && endsLinked before) ||
      (next = .pictograph && endsChained before) || (next = .regional && endsInHalfFlag before)

/-- Splits the rest of a text. The cluster that is not yet complete is listed from its end. -/
def split (before : List Role) (cluster : List Char) : List Char → List (List Char)
  | [] => [cluster.reverse]
  | c :: rest =>
    let role := Role.ofChar c
    if joins before role then split (role :: before) (c :: cluster) rest
    else cluster.reverse :: split (role :: before) [c] rest

end Cluster

/-- The clusters of a text, in order. -/
def clusters : List Char → List (List Char)
  | [] => []
  | c :: rest => Cluster.split [Cluster.Role.ofChar c] [c] rest

theorem flatten_split (before : List Cluster.Role) (cluster text : List Char) :
    (Cluster.split before cluster text).flatten = cluster.reverse ++ text := by
  induction text generalizing before cluster with
  | nil => simp [Cluster.split]
  | cons c rest ih =>
    simp only [Cluster.split]
    split <;> simp [ih]

theorem flatten_clusters (text : List Char) : (clusters text).flatten = text := by
  cases text with
  | nil => rfl
  | cons c rest => simp [clusters, flatten_split]

end ScriptBoundary.Text
