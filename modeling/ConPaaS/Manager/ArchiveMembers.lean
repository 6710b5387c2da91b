import ConPaaS.Lib.Paths
import ConPaaS.Manager.CodeVersions

namespace ConPaaS

open Paths

/-- The loop of `upload_code_version` over the members of an archive. -/
def checkMembers : List (List Char) → Except String Unit
  | [] => .ok ()
  | fname :: rest =>
    if "/".toList.isPrefixOf fname || "..".toList.isPrefixOf fname then
      .error "Invalid arguments (Absolute file names are not allowed in archive members)"
    else checkMembers rest

/-- The checks of an upload, with the names of the members of the archive, if it
is one. -/
def checkArchive : Option (List (List Char)) → Except String Unit
  | none => .error "Invalid arguments (Invalid archive format)"
  | some members => checkMembers members

/-- Where `extractall` puts a member. -/
def extracted (targetDir fname : List Char) : List Segment := normpath (join targetDir fname)

/-- A member is inside the target directory, or the directory itself. -/
def Inside (targetDir fname : List Char) : Prop := normpath targetDir <+: extracted targetDir fname

/-- A name whose normal form, after leaving some directories, begins with as many
last directories of the target again. -/
def ComesBack (targetDir fname : List Char) : Prop :=
  let name := normalise (components fname)
  (normpath targetDir).drop ((normpath targetDir).length - name.up) <+: name.down

instance (targetDir fname : List Char) : Decidable (Inside targetDir fname) :=
  inferInstanceAs (Decidable (_ <+: _))

theorem checkMembers_ok {members : List (List Char)} : checkMembers members = .ok () ↔
    ∀ fname ∈ members, ¬ "/".toList <+: fname ∧ ¬ "..".toList <+: fname := by
  induction members with
  | nil => simp [checkMembers]
  | cons fname rest ih =>
    rw [checkMembers, List.forall_mem_cons, ← ih]
    simp only [Bool.or_eq_true, List.isPrefixOf_iff_prefix]
    split
    · rename_i refused
      exact ⟨nofun, fun both => absurd refused (not_or.mpr both.1)⟩
    · rename_i taken
      exact ⟨fun later => ⟨not_or.mp taken, later⟩, fun both => both.2⟩

theorem inside_iff {targetDir fname : List Char} (relative : ¬ "/".toList <+: fname) :
    Inside targetDir fname ↔ ComesBack targetDir fname := by
  have first : fname.head? ≠ some '/' := by
    intro slash
    obtain ⟨rest, rfl⟩ := List.head?_eq_some_iff.mp slash
    exact relative (List.prefix_append _ rest)
  rw [Inside, extracted, normpath_join first]
  exact prefix_resolve_iff

/-- An upload that is accepted, extracted to a directory. -/
theorem extracted_inside_iff {m after : CodeManager} {codeVersionId filename type description : String}
    {members : List (List Char)}
    (accepted : m.answer (.uploadCodeVersion codeVersionId filename type description (checkArchive (some members))) =
      .ok after)
    (targetDir : List Char) :
    (∀ fname ∈ members, Inside targetDir fname) ↔ ∀ fname ∈ members, ComesBack targetDir fname := by
  obtain ⟨_, checked, -⟩ := Fallible.map_ok.mp accepted
  have relative := checkMembers_ok.mp checked
  exact forall₂_congr fun fname member => inside_iff (relative fname member).1

/-- A member that leaves the target for its parent and comes back. -/
theorem siblings_inside_iff :
    (∀ fname ∈ ["index.php".toList, "lib/../../code-a/x".toList], Inside "/var/cache/www/code-a".toList fname) ↔
      ∀ fname ∈ ["index.php".toList, "lib/../../code-a/x".toList], ComesBack "/var/cache/www/code-a".toList fname :=
  @extracted_inside_iff (.created .php) _ "code-a" "code.tar" "tar" "" _ rfl "/var/cache/www/code-a".toList

/-- A parent that is not at the beginning of the name. -/
theorem parent_extracted : ¬ ∀ (m after : CodeManager) (codeVersionId filename type description : String)
    (members : List (List Char)),
    m.answer (.uploadCodeVersion codeVersionId filename type description (checkArchive (some members))) = .ok after →
    ∀ (targetDir : List Char), ∀ fname ∈ members, Inside targetDir fname := by
  intro all
  have inside := all (.created .php) _ "code-a" "code.tar" "tar" "" ["lib/../../code-b/index.php".toList] rfl
    "/var/cache/www/code-a".toList _ (List.mem_singleton_self _)
  exact absurd inside (by decide)

end ConPaaS
