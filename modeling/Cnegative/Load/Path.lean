import Cnegative.Syntax.Text

namespace Cnegative

namespace Load

/-! The paths of `project.c` on a POSIX host, where `cn_path_normalize_separators` does
nothing. -/

def pathSeparator : UInt8 := '/'.toUInt8

def pathIsSeparator (value : UInt8) : Bool :=
  value == '/'.toUInt8 || value == '\\'.toUInt8

def pathIsAbsolute : Text → Bool
  | [] => false
  | value :: _ => pathIsSeparator value

/-- `none` when `getcwd` fails. -/
def makeAbsolutePath (cwd : Option Text) (path : Text) : Option Text :=
  if pathIsAbsolute path then some path
  else cwd.map fun directory => directory ++ pathSeparator :: path

def pathLastSeparator : Text → Option (Text × Text)
  | [] => none
  | value :: rest =>
      match pathLastSeparator rest with
      | some (before, after) => some (value :: before, after)
      | none => if pathIsSeparator value then some ([], rest) else none

def pathDirectory (path : Text) : Text :=
  match pathLastSeparator path with
  | none => Name.text "."
  | some (before, _) => if before.isEmpty then path.take 1 else before

def pathStripKnownExtension (path : Text) : Text :=
  if 5 < path.length && path.drop (path.length - 5) == Name.text ".cneg" then
    path.take (path.length - 5)
  else if 3 < path.length && path.drop (path.length - 3) == Name.text ".cn" then
    path.take (path.length - 3)
  else path

/-- `root_length` of `cn_path_relative_to_root`: separators at the end do not count, but
the first byte always does. -/
def trimRoot : Text → Text
  | [] => []
  | first :: rest => first :: (rest.reverse.dropWhile pathIsSeparator).reverse

def pathRelativeToRoot (root path : Text) : Option Text :=
  if (trimRoot root).isPrefixOf path then
    match path.drop (trimRoot root).length with
    | [] => some []
    | value :: relative => if pathIsSeparator value then some relative else none
  else none

def pathModuleNameFromRelative (relative : Text) : Text :=
  (pathStripKnownExtension relative).map fun value =>
    if pathIsSeparator value then '.'.toUInt8 else value

def pathBasenameModuleName (path : Text) : Text :=
  match pathLastSeparator path with
  | none => pathStripKnownExtension path
  | some (_, name) => pathStripKnownExtension name

/-- The two fixed places where imports are looked up. -/
structure Roots where
  projectRoot : Text
  vendorRoot : Text
  deriving DecidableEq

def projectModuleNameFromPath (roots : Roots) (path : Text) : Text :=
  match pathRelativeToRoot roots.projectRoot path with
  | some (value :: relative) => pathModuleNameFromRelative (value :: relative)
  | _ =>
      match pathRelativeToRoot roots.vendorRoot path with
      | some (value :: relative) => pathModuleNameFromRelative (value :: relative)
      | _ => pathBasenameModuleName path

def pathBuildImportPathFromRoot (root importName extension : Text) : Text :=
  root ++ pathSeparator ::
    (importName.map (fun value => if value == '.'.toUInt8 then pathSeparator else value) ++
      extension)

def pathJoinComponent (base component : Text) : Text :=
  base ++ pathSeparator :: component

def builtinStdlibModuleNames : List Text :=
  ["std.math", "std.bytes", "std.ipc", "std.lines", "std.strings", "std.text", "std.parse",
    "std.fs", "std.io", "std.term", "std.time", "std.env", "std.path", "std.net", "std.x11",
    "std.process"].map Name.text

def isBuiltinStdlibModuleName (moduleName : Text) : Bool :=
  builtinStdlibModuleNames.contains moduleName

/-! Absolute paths stay absolute. -/

theorem pathIsAbsolute_append {path : Text} (habsolute : pathIsAbsolute path = true)
    (rest : Text) : pathIsAbsolute (path ++ rest) = true := by
  cases path with
  | nil => simp [pathIsAbsolute] at habsolute
  | cons value tail => exact habsolute

theorem pathIsAbsolute_append_of_ne_nil {path : Text} (hpath : path ≠ []) (rest : Text) :
    pathIsAbsolute (path ++ rest) = pathIsAbsolute path := by
  cases path with
  | nil => contradiction
  | cons value tail => rfl

theorem makeAbsolutePath_of_absolute {path : Text} (habsolute : pathIsAbsolute path = true)
    (cwd : Option Text) : makeAbsolutePath cwd path = some path := by
  simp [makeAbsolutePath, habsolute]

theorem makeAbsolutePath_isAbsolute {cwd : Option Text}
    (hcwd : ∀ directory ∈ cwd, pathIsAbsolute directory = true) {path absolute : Text}
    (hmake : makeAbsolutePath cwd path = some absolute) : pathIsAbsolute absolute = true := by
  unfold makeAbsolutePath at hmake
  split at hmake
  · simp only [Option.some.injEq] at hmake
    rwa [← hmake]
  · cases cwd with
    | none => simp at hmake
    | some directory =>
        simp only [Option.map_some, Option.some.injEq] at hmake
        rw [← hmake]
        exact pathIsAbsolute_append (hcwd _ rfl) _

theorem pathLastSeparator_of_absolute {path : Text} (habsolute : pathIsAbsolute path = true) :
    ∃ before after, pathLastSeparator path = some (before, after) ∧
      (before = [] ∨ pathIsAbsolute before = true) := by
  cases path with
  | nil => simp [pathIsAbsolute] at habsolute
  | cons value rest =>
      cases hrest : pathLastSeparator rest with
      | none =>
          refine ⟨[], rest, ?_, Or.inl rfl⟩
          simpa [pathLastSeparator, hrest, pathIsAbsolute] using habsolute
      | some found =>
          exact ⟨value :: found.1, found.2, by simp [pathLastSeparator, hrest], Or.inr habsolute⟩

theorem pathDirectory_isAbsolute {path : Text} (habsolute : pathIsAbsolute path = true) :
    pathIsAbsolute (pathDirectory path) = true := by
  obtain ⟨before, after, hlast, hbefore⟩ := pathLastSeparator_of_absolute habsolute
  simp only [pathDirectory, hlast]
  cases hbefore with
  | inl hnil =>
      cases path with
      | nil => simp [pathIsAbsolute] at habsolute
      | cons value rest => simpa [hnil, pathIsAbsolute] using habsolute
  | inr hkept =>
      cases before with
      | nil => simp [pathIsAbsolute] at hkept
      | cons value rest => simpa using hkept

theorem pathBuildImportPathFromRoot_isAbsolute {root : Text}
    (habsolute : pathIsAbsolute root = true) (importName extension : Text) :
    pathIsAbsolute (pathBuildImportPathFromRoot root importName extension) = true :=
  pathIsAbsolute_append habsolute _

theorem pathJoinComponent_isAbsolute {base : Text} (habsolute : pathIsAbsolute base = true)
    (component : Text) : pathIsAbsolute (pathJoinComponent base component) = true :=
  pathIsAbsolute_append habsolute _

end Load

end Cnegative
