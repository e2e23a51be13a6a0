import FlatHeader.Command.Run
import FlatHeader.Proofs.Blocks
import FlatHeader.Proofs.Files

/-!
# What a run changes

A run that fails changes nothing on the host, and one that makes a header writes this header to the
output path and changes nothing else. `MacrosAt` and `OutputAt` say which paths the arguments mean.
`Made` lists how the making of a header can end; the exit code is read off the ending, and so is the
host that is left behind (`run_make`).
-/

namespace FlatHeader.Command

open Text

/-! ## What the arguments mean -/

/-- The path that leads to `path` from the directory `base`, where `path` does not start at the
root: a slash keeps the two apart, unless `base` is empty or ends with one. -/
inductive Below (base path : Text) : Text → Prop
  | behindSlash (h : base = [] ∨ base.getLast? = some '/') : Below base path (base ++ path)
  | apart (hne : base ≠ []) (h : base.getLast? ≠ some '/') : Below base path (base ++ '/' :: path)

/-- The name of a header for tags and classes: after the first tag if there are only tags, after the
first class if there are only classes, and after none if there are neither or both. -/
inductive NamedAfter : List Text → List Text → Text → Prop
  | tag (tag : Text) (more : List Text) :
      NamedAfter (tag :: more) [] ("ootag_".toList ++ tag ++ ".generated.h".toList)
  | cls (cls : Text) (more : List Text) :
      NamedAfter [] (cls :: more) ("oocls_".toList ++ cls ++ ".generated.h".toList)
  | neither : NamedAfter [] [] "oo.generated.h".toList
  | both {tags classes : List Text} (htags : tags ≠ []) (hclasses : classes ≠ []) :
      NamedAfter tags classes "oo.generated.h".toList

/-- Where the definitions are: at the path that is given, or at the usual place below the root of
the project. The root is the working directory if none is given. -/
inductive MacrosAt (a : Arguments) : Text → Prop
  | given {path : Text} (hmacros : a.macros = some path) : MacrosAt a path
  | usual {path : Text} (hmacros : a.macros = none)
      (hpath : Below (a.root.getD ".".toList) "src/include/darma/impl/oo/macros.h".toList path) :
      MacrosAt a path

/-- Where the header goes: to the path that is given, or into the folder under the name for the tags
and classes. The folder is the working directory if none is given. -/
inductive OutputAt (a : Arguments) : Text → Prop
  | given {path : Text} (houtput : a.output = some path) : OutputAt a path
  | named {name path : Text} (houtput : a.output = none) (hname : NamedAfter a.tags a.classes name)
      (hpath : Below (a.folder.getD ".".toList) name path) : OutputAt a path

theorem below_iff {base path p : Text} (hpath : path.head? ≠ some '/') :
    Below base path p ↔ joinPaths base path = p := by
  have hbehind : (base.getLast?.all (· == '/') : Prop) ↔
      base = [] ∨ base.getLast? = some '/' := by
    rcases List.eq_nil_or_concat' base with rfl | ⟨front, c, rfl⟩ <;> simp
  unfold joinPaths
  rw [if_neg hpath]
  by_cases h : base = [] ∨ base.getLast? = some '/'
  · rw [if_pos (hbehind.2 h)]
    constructor
    · rintro (- | ⟨hne, hlast⟩)
      · rfl
      · exact absurd h (not_or.2 ⟨hne, hlast⟩)
    · rintro rfl
      exact .behindSlash h
  · rw [if_neg (mt hbehind.1 h)]
    constructor
    · rintro (hslash | -)
      · exact absurd hslash h
      · rfl
    · rintro rfl
      obtain ⟨hne, hlast⟩ := not_or.1 h
      exact .apart hne hlast

theorem namedAfter_iff {a : Arguments} {name : Text} :
    NamedAfter a.tags a.classes name ↔ name = a.defaultName := by
  unfold Arguments.defaultName
  generalize a.tags = tags
  generalize a.classes = classes
  constructor
  · intro h
    cases h with
    | tag | cls | neither => rfl
    | both htags hclasses =>
      obtain ⟨tag, more, rfl⟩ := List.exists_cons_of_ne_nil htags
      obtain ⟨cls, others, rfl⟩ := List.exists_cons_of_ne_nil hclasses
      rfl
  · rintro rfl
    cases tags with
    | nil =>
      cases classes with
      | nil => exact .neither
      | cons cls more => exact .cls cls more
    | cons tag more =>
      cases classes with
      | nil => exact .tag tag more
      | cons cls others => exact .both (List.cons_ne_nil _ _) (List.cons_ne_nil _ _)

/-- The name for tags and classes does not start at the root. -/
theorem head?_defaultName (a : Arguments) : a.defaultName.head? = some 'o' := by
  unfold Arguments.defaultName
  split <;> rfl

/-- There is one path for the definitions. -/
theorem macrosAt_iff {a : Arguments} {path : Text} : MacrosAt a path ↔ path = a.macrosPath := by
  unfold Arguments.macrosPath
  rw [eq_comm, Option.getD_eq_iff, ← below_iff (by decide)]
  constructor
  · rintro (hmacros | ⟨hmacros, hpath⟩)
    · exact .inl hmacros
    · exact .inr ⟨hmacros, hpath⟩
  · rintro (hmacros | ⟨hmacros, hpath⟩)
    · exact .given hmacros
    · exact .usual hmacros hpath

/-- There is one path for the header. -/
theorem outputAt_iff {a : Arguments} {path : Text} : OutputAt a path ↔ path = a.outputPath := by
  unfold Arguments.outputPath
  have hname : a.defaultName.head? ≠ some '/' := by
    rw [head?_defaultName]
    decide
  rw [eq_comm, Option.getD_eq_iff, ← below_iff hname]
  constructor
  · rintro (houtput | ⟨houtput, hnamed, hpath⟩)
    · exact .inl houtput
    · rw [namedAfter_iff] at hnamed
      exact .inr ⟨houtput, hnamed ▸ hpath⟩
  · rintro (houtput | ⟨houtput, hpath⟩)
    · exact .given houtput
    · exact .named houtput (namedAfter_iff.2 rfl) hpath

/-- The header for tags and classes, with the choices `o`, from the definitions in the file that a
path leads to. -/
def HeaderFor (h : Host) (macros : Text) (tags classes : List Text) (o : Options)
    (header : Text) : Prop :=
  ∃ source table, h.readText macros = .ok source ∧ Table.parse source = .ok table ∧
    generate table tags classes o = .ok header

theorem headerFrom_eq_ok_iff {a : Arguments} {source header : Text} :
    headerFrom a (.ofSource source) = .ok header ↔
      ∃ table, Table.parse source = .ok table ∧
        generate table a.tags a.classes a.options = .ok header := by
  have hbind : headerFrom a (.ofSource source) =
      (Table.parse source).bind fun table => generate table a.tags a.classes a.options := rfl
  rw [hbind]
  cases Table.parse source with
  | error e => exact iff_of_false (by simp [Except.bind]) (by simp)
  | ok table => exact ⟨fun h => ⟨table, rfl, h⟩, fun ⟨_, htable, h⟩ => Except.ok.inj htable ▸ h⟩

section

variable {h : Host} {macros header : Text} {tags classes : List Text} {o : Options}

/-- A header is written as it is. -/
theorem withFinalLineFeed_of_headerFor (hseed : o.seed = {})
    (hheader : HeaderFor h macros tags classes o header) :
    header.getLast? = some '\n' ∧ withFinalLineFeed header = header := by
  obtain ⟨source, table, -, -, hgenerate⟩ := hheader
  have hlast := getLast?_of_generate hseed hgenerate
  exact ⟨hlast, if_pos hlast⟩

/-- There is one header. -/
theorem HeaderFor.unique {header' : Text} (hheader : HeaderFor h macros tags classes o header)
    (hheader' : HeaderFor h macros tags classes o header') : header = header' := by
  obtain ⟨source, table, hread, hparse, hgenerate⟩ := hheader
  obtain ⟨source', table', hread', hparse', hgenerate'⟩ := hheader'
  obtain rfl := Except.ok.inj (hread.symm.trans hread')
  obtain rfl := Except.ok.inj (hparse.symm.trans hparse')
  exact Except.ok.inj (hgenerate.symm.trans hgenerate')

end

/-! ## The making of a header -/

/-- How the making of a header ends on a host, and the host that is left. -/
inductive Made (a : Arguments) (h : Host) : Except Failure Unit → Host → Prop
  | missing (hfile : h.isFile a.macrosPath = false) :
      Made a h (.error (.missingMacros a.macrosPath)) h
  | unreadable {e : FileError} (hfile : h.isFile a.macrosPath = true)
      (hread : h.readText a.macrosPath = .error e) :
      Made a h (.error (.unreadable a.macrosPath e)) h
  | faulty {source : Text} {e : Error} (hfile : h.isFile a.macrosPath = true)
      (hread : h.readText a.macrosPath = .ok source)
      (hheader : headerFrom a (.ofSource source) = .error e) :
      Made a h (.error (.faulty a.macrosPath source e)) h
  | unwritable {header : Text} {e : FileError} (hfile : h.isFile a.macrosPath = true)
      (hheader : HeaderFor h a.macrosPath a.tags a.classes a.options header)
      (hwrite : h.writeText a.outputPath header = .error e) :
      Made a h (.error (.unwritable a.outputPath e)) h
  | written {header : Text} {h' : Host} (hfile : h.isFile a.macrosPath = true)
      (hheader : HeaderFor h a.macrosPath a.tags a.classes a.options header)
      (hwrite : h.writeText a.outputPath header = .ok h') :
      Made a h (.ok ()) h'

/-- The header is written, if there is one. -/
theorem made_finish {a : Arguments} {h : Host} {source : Text}
    (hfile : h.isFile a.macrosPath = true) (hread : h.readText a.macrosPath = .ok source)
    (events : List Log.Event) :
    Made a h
      ((finish a source events (headerFrom a (.ofSource source)) : StateM Host _).run h).1.2
      ((finish a source events (headerFrom a (.ofSource source)) : StateM Host _).run h).2 := by
  cases hfrom : headerFrom a (.ofSource source) with
  | error e => exact .faulty hfile hread hfrom
  | ok header =>
    obtain ⟨table, hparse, hgenerate⟩ := headerFrom_eq_ok_iff.1 hfrom
    have hheader : HeaderFor h a.macrosPath a.tags a.classes a.options header :=
      ⟨source, table, hread, hparse, hgenerate⟩
    unfold finish
    rw [Host.run_bind, (withFinalLineFeed_of_headerFor rfl hheader).2, Host.run_write]
    cases hwrite : h.writeText a.outputPath header with
    | error e => exact .unwritable hfile hheader hwrite
    | ok h' => exact .written hfile hheader hwrite

theorem made_make (a : Arguments) (f : Log.Filter) (h : Host) :
    Made a h ((make a f : StateM Host _).run h).1.2 ((make a f : StateM Host _).run h).2 := by
  unfold make
  rw [Host.run_bind, Host.run_isFile]
  cases hfile : h.isFile a.macrosPath with
  | false => exact .missing hfile
  | true =>
    dsimp only
    rw [if_pos rfl, Host.run_bind, Host.run_read]
    cases hread : h.readText a.macrosPath with
    | error e => exact .unreadable hfile hread
    | ok source => exact made_finish hfile hread _

/-- The exit code of a run is that of the way the making of the header ended. -/
theorem run_make {arguments : List Text} {a : Arguments}
    (hread : Request.read arguments = .ok (.make a)) (rules : Option Text) (h : Host) :
    ∃ result, Made a h result ((run arguments rules : StateM Host Outcome).run h).2 ∧
      ((run arguments rules : StateM Host Outcome).run h).1.exitCode =
        match result with
        | .ok () => 0
        | .error failure => failure.exitCode := by
  have hmade := made_make a (filterOf a rules).1 h
  unfold run
  simp only [hread]
  rw [Host.run_bind]
  rcases hmake : (make a (filterOf a rules).1 : StateM Host _).run h with ⟨⟨events, result⟩, h'⟩
  rw [hmake] at hmade
  refine ⟨result, ?_⟩
  cases result with
  | ok u => exact ⟨hmade, rfl⟩
  | error failure => exact ⟨hmade, rfl⟩

/-! ## The whole run -/

end FlatHeader.Command
