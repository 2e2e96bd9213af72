import StaticSite.Config.Basic
import StaticSite.Proofs.Config.Pieces
/-!
# What is filled into a template

Which variables a template waits for, and whether it can be filled in at all, depends on which
variables are set and whether what they are set to is text. What the texts are does not
matter: it is only put into the places that wait for it. A configuration has its strings
expanded in order, so it fails with the first string that does, and otherwise each string is
filled in.
-/

namespace StaticSite

/-- What is known of a variable apart from its value. -/
inductive VariableKind where
  | unset
  | text
  | bytes
deriving DecidableEq, Repr

def Environment.kind (env : Environment) (name : String) : VariableKind :=
  match env name with
  | none => .unset
  | some (.text _) => .text
  | some (.bytes _) => .bytes

/-- A part of a template for which it is settled what it stands for, up to the value of a
variable. -/
inductive Slot where
  | literal (content : List Char)
  | value (name : String)
deriving DecidableEq, Repr

namespace Template

variable {env : Environment} {kind : String → VariableKind} {text : String}

/-- The part that a piece stands for. A default is used as it is written. -/
def settlePiece (kind : String → VariableKind) : Piece → Except TemplateError Slot
  | .literal content => .ok (.literal content)
  | .reference name default? =>
    match kind name, default? with
    | .text, _ => .ok (.value name)
    | _, some default => .ok (.literal default.toList)
    | .bytes, none => .error (.notText name)
    | .unset, none => .error (.notSet name)

def settle (kind : String → VariableKind) : List Piece → Except TemplateError (List Slot)
  | [] => .ok []
  | piece :: pieces => do
    let slot ← settlePiece kind piece
    let slots ← settle kind pieces
    .ok (slot :: slots)

def Settles (kind : String → VariableKind) (text : String)
    (result : Except TemplateError (List Slot)) : Prop :=
  ∃ pieces, IsTemplate text pieces ∧ settle kind pieces = result

def slotContent (env : Environment) : Slot → List Char
  | .literal content => content
  | .value name =>
    match env name with
    | some (.text content) => content.toList
    | _ => []

def complete (env : Environment) (slots : List Slot) : String :=
  String.ofList (slots.flatMap (slotContent env))

theorem settles_iff {result : Except TemplateError (List Slot)} :
    Settles kind text result ↔ settle kind (ofString text) = result := by
  constructor
  · intro h
    rcases h with ⟨pieces, htemplate, hsettle⟩
    rw [isTemplate_iff.mp htemplate]
    exact hsettle
  · intro h
    exact ⟨ofString text, isTemplate_iff.mpr rfl, h⟩

/-!
## Filling in what is settled
-/

theorem fillPiece_eq (env : Environment) (piece : Piece) :
    fillPiece env piece = (settlePiece env.kind piece).map (slotContent env) := by
  cases piece with
  | literal content => rfl
  | reference name default? =>
      simp only [fillPiece, settlePiece, Environment.kind]
      cases hvalue : env name with
      | none => cases default? <;> rfl
      | some held =>
          cases held with
          | text content => simp [Except.map, slotContent, hvalue]
          | bytes content => cases default? <;> rfl

theorem fill_eq (env : Environment) (pieces : List Piece) :
    fill env pieces = (settle env.kind pieces).map (List.flatMap (slotContent env)) := by
  induction pieces with
  | nil => rfl
  | cons piece pieces ih =>
      rw [fill, settle, fillPiece_eq, ih]
      cases settlePiece env.kind piece with
      | error cause => rfl
      | ok slot => cases settle env.kind pieces <;> rfl

theorem kind_of_settlePiece {piece : Piece} {name : String}
    (h : settlePiece kind piece = .ok (.value name)) : kind name = .text := by
  unfold settlePiece at h
  split at h
  · cases h
  · split at h <;> cases h
    assumption

theorem kind_of_mem_settle {pieces : List Piece} {slots : List Slot} {name : String}
    (h : settle kind pieces = .ok slots) (hname : .value name ∈ slots) : kind name = .text := by
  induction pieces generalizing slots with
  | nil =>
      cases h
      cases hname
  | cons piece pieces ih =>
      rw [settle] at h
      cases hpiece : settlePiece kind piece with
      | error cause =>
          rw [hpiece] at h
          cases h
      | ok slot =>
          cases hrest : settle kind pieces with
          | error cause =>
              rw [hpiece, hrest] at h
              cases h
          | ok rest =>
              rw [hpiece, hrest] at h
              cases h
              rcases List.mem_cons.mp hname with rfl | hname
              · exact kind_of_settlePiece hpiece
              · exact ih hrest hname

end Template

theorem Environment.exists_of_kind_eq_text {env : Environment} {name : String}
    (h : env.kind name = .text) : ∃ content, env name = some (.text content) := by
  unfold kind at h
  split at h
  · cases h
  · next content hvalue => exact ⟨content, hvalue⟩
  · cases h

/-!
## Strings of a configuration
-/

namespace Config

open Template (Settles settle complete settles_iff)

variable {α β : Type} {env : Environment} {config : Config}

/-- The strings in which variables are replaced, in order. -/
def strings (config : Config) : List (ConfigField × String) :=
  (config.site.outDir.map (Prod.mk .outDir)).toList ++
    ((config.site.lang.map (Prod.mk .lang)).toList ++
      ((config.site.footer.map (Prod.mk .footer)).toList ++
        config.pages.zipIdx.map fun item => (.title item.2, item.1.title)))

def mapStrings (f : String → String) (config : Config) : Config :=
  { config with
    site := { config.site with
      outDir := config.site.outDir.map f
      lang := config.site.lang.map f
      footer := config.site.footer.map f }
    pages := config.pages.map fun entry => { entry with title := f entry.title } }

def failure? (kind : String → VariableKind) (item : ConfigField × String) : Option ConfigError :=
  match settle kind (Template.ofString item.2) with
  | .error cause => some (.expansion item.1 cause)
  | .ok _ => none

def slots (kind : String → VariableKind) (text : String) : List Slot :=
  match settle kind (Template.ofString text) with
  | .error _ => []
  | .ok slots => slots

def filled (env : Environment) (text : String) : String := complete env (slots env.kind text)

def resultOf (failure? : Option ConfigError) (value : α) : Except ConfigError α :=
  match failure? with
  | some error => .error error
  | none => .ok value

theorem resultOf_bind_ok (failure? : Option ConfigError) (a : α) (next : α → β) :
    (resultOf failure? a >>= fun value => .ok (next value)) = resultOf failure? (next a) := by
  cases failure? <;> rfl

theorem resultOf_bind (first? second? : Option ConfigError) (a : α) (next : α → β) :
    (resultOf first? a >>= fun value => resultOf second? (next value)) =
      resultOf (first?.or second?) (next a) := by
  cases first? <;> rfl

theorem expandField_eq (env : Environment) (field : ConfigField) (text : String) :
    expandField env field text = resultOf (failure? env.kind (field, text)) (filled env text) := by
  unfold expandField expand failure? filled slots
  rw [Template.fill_eq]
  cases settle env.kind (Template.ofString text) <;> rfl

theorem expandField?_eq (env : Environment) (field : ConfigField) (text? : Option String) :
    expandField? env field text? =
      resultOf ((text?.map (Prod.mk field)).toList.findSome? (failure? env.kind))
        (text?.map (filled env)) := by
  cases text? with
  | none => rfl
  | some text =>
      rw [expandField?, expandField_eq, resultOf_bind_ok, Option.map_some, Option.toList_some,
        List.findSome?_singleton, Option.map_some]

theorem expandTitles_eq (env : Environment) (index : Nat) (pages : List PageEntry) :
    expandTitles env index pages =
      resultOf
        (((pages.zipIdx index).map fun item => (ConfigField.title item.2, item.1.title)).findSome?
          (failure? env.kind))
        (pages.map fun entry => { entry with title := filled env entry.title }) := by
  induction pages generalizing index with
  | nil => rfl
  | cons entry pages ih =>
      rw [expandTitles, expandField_eq, ih, List.zipIdx_cons, List.map_cons,
        ← List.singleton_append, List.findSome?_append, List.findSome?_singleton]
      simp only [resultOf_bind_ok, resultOf_bind, List.map_cons]

/-- Expanding fails with the first string that does, and otherwise fills in every string. -/
theorem expandAll_eq (env : Environment) (config : Config) :
    expandAll env config =
      resultOf (config.strings.findSome? (failure? env.kind)) (config.mapStrings (filled env)) := by
  rw [expandAll, expandField?_eq, expandField?_eq, expandField?_eq, expandTitles_eq, strings,
    List.findSome?_append, List.findSome?_append, List.findSome?_append]
  simp only [resultOf_bind_ok, resultOf_bind]
  rfl

/-!
## Two environments
-/

theorem failure?_eq_none_iff {kind : String → VariableKind} {item : ConfigField × String} :
    failure? kind item = none ↔ Settles kind item.2 (.ok (slots kind item.2)) := by
  rw [settles_iff, failure?, slots]
  cases settle kind (Template.ofString item.2) <;> simp

theorem failure?_eq_some_iff {kind : String → VariableKind} {item : ConfigField × String}
    {error : ConfigError} :
    failure? kind item = some error ↔
      ∃ cause, Settles kind item.2 (.error cause) ∧ error = .expansion item.1 cause := by
  simp only [settles_iff, failure?]
  cases settle kind (Template.ofString item.2) <;> simp [eq_comm]

theorem expandField_of_settles_error {text : String} {cause : TemplateError}
    (h : Settles env.kind text (.error cause)) (field : ConfigField) :
    expandField env field text = .error (.expansion field cause) := by
  have hfailure : failure? env.kind (field, text) = some (.expansion field cause) :=
    failure?_eq_some_iff.mpr ⟨cause, h, rfl⟩
  rw [expandField_eq, hfailure, resultOf]

theorem expandField_of_settles {text : String} {slots : List Slot}
    (h : Settles env.kind text (.ok slots)) (field : ConfigField) :
    expandField env field text = .ok (complete env slots) := by
  rw [settles_iff] at h
  rw [expandField_eq, failure?, h, filled, Config.slots, h, resultOf]

theorem exists_of_value_mem {text name : String} {slots : List Slot}
    (h : Settles env.kind text (.ok slots)) (hname : .value name ∈ slots) :
    ∃ content, env name = some (.text content) := by
  rw [settles_iff] at h
  exact Environment.exists_of_kind_eq_text (Template.kind_of_mem_settle h hname)

/-- Two environments that set the same variables to texts, and the same ones to bytes that are
none, fail on the same strings and for the same reason. In any other string they put the values
of variables into the same places, and what is put there is not read again. -/
theorem expandAll_verbatim (env env' : Environment)
    (h : ∀ name, env.kind name = env'.kind name) :
    (∀ text,
      (∃ cause, Settles env.kind text (.error cause) ∧ ∀ field,
        expandField env field text = .error (.expansion field cause) ∧
          expandField env' field text = .error (.expansion field cause)) ∨
      ∃ slots, Settles env.kind text (.ok slots) ∧
        (∀ name, .value name ∈ slots → ∃ content content',
          env name = some (.text content) ∧ env' name = some (.text content')) ∧
        ∀ field, expandField env field text = .ok (complete env slots) ∧
          expandField env' field text = .ok (complete env' slots)) ∧
    ∀ config : Config,
      (∃ before field text after cause,
        config.strings = before ++ (field, text) :: after ∧
        (∀ earlier ∈ before, ∃ slots, Settles env.kind earlier.2 (.ok slots)) ∧
        Settles env.kind text (.error cause) ∧
        expandAll env config = .error (.expansion field cause) ∧
        expandAll env' config = .error (.expansion field cause)) ∨
      ∃ template : String → List Slot,
        (∀ item ∈ config.strings, Settles env.kind item.2 (.ok (template item.2))) ∧
        expandAll env config = .ok (config.mapStrings fun text => complete env (template text)) ∧
        expandAll env' config =
          .ok (config.mapStrings fun text => complete env' (template text)) := by
  have hkind : env.kind = env'.kind := funext h
  constructor
  · intro text
    cases hsettle : settle env.kind (Template.ofString text) with
    | error cause =>
        have hsettles : Settles env.kind text (.error cause) := settles_iff.mpr hsettle
        have hsettles' : Settles env'.kind text (.error cause) := hkind ▸ hsettles
        left
        refine ⟨cause, hsettles, fun field => ?_⟩
        exact ⟨expandField_of_settles_error hsettles field,
          expandField_of_settles_error hsettles' field⟩
    | ok slots =>
        have hsettles : Settles env.kind text (.ok slots) := settles_iff.mpr hsettle
        have hsettles' : Settles env'.kind text (.ok slots) := hkind ▸ hsettles
        right
        refine ⟨slots, hsettles, fun name hname => ?_, fun field => ?_⟩
        · rcases exists_of_value_mem hsettles hname with ⟨content, hcontent⟩
          rcases exists_of_value_mem hsettles' hname with ⟨content', hcontent'⟩
          exact ⟨content, content', hcontent, hcontent'⟩
        · exact ⟨expandField_of_settles hsettles field, expandField_of_settles hsettles' field⟩
  · intro config
    rw [expandAll_eq, expandAll_eq, ← hkind]
    cases hfailure : config.strings.findSome? (failure? env.kind) with
    | some error =>
        left
        rcases List.findSome?_eq_some_iff.mp hfailure with
          ⟨before, ⟨field, text⟩, after, hstrings, herror, hbefore⟩
        rcases failure?_eq_some_iff.mp herror with ⟨cause, hcause, rfl⟩
        refine ⟨before, field, text, after, cause, hstrings, ?_, hcause, rfl, rfl⟩
        intro earlier hearlier
        exact ⟨_, failure?_eq_none_iff.mp (hbefore earlier hearlier)⟩
    | none =>
        right
        refine ⟨slots env.kind, ?_, rfl, ?_⟩
        · intro item hitem
          exact failure?_eq_none_iff.mp (List.findSome?_eq_none_iff.mp hfailure item hitem)
        · show _ = Except.ok (config.mapStrings fun text => complete env' (slots env.kind text))
          rw [hkind]
          rfl

theorem expandAll_verbatim_reference :
    let env : Environment := fun name => if name = "A" then some (.text "x") else none
    let env' : Environment := fun name => if name = "A" then some (.text "$\x7bB\x7d") else none
    (∀ name, env.kind name = env'.kind name) ∧
      expandField env .footer "<$\x7bA\x7d>" = .ok "<x>" ∧
      expandField env' .footer "<$\x7bA\x7d>" = .ok "<$\x7bB\x7d>" := by
  intro env env'
  have hkind : ∀ name, env.kind name = env'.kind name := by
    intro name
    by_cases hname : name = "A" <;> simp [env, env', Environment.kind, hname]
  have hpieces : Template.ofString "<$\x7bA\x7d>" =
      [.literal ['<'], .reference "A" none, .literal ['>']] := by
    decide +kernel
  have hsettle : settle env.kind (Template.ofString "<$\x7bA\x7d>") =
      .ok [.literal ['<'], .value "A", .literal ['>']] := by
    rw [hpieces]
    rfl
  rcases (expandAll_verbatim env env' hkind).1 "<$\x7bA\x7d>" with
    ⟨cause, hcause, -⟩ | ⟨slots, hslots, -, hfield⟩
  · rw [settles_iff, hsettle] at hcause
    cases hcause
  · rw [settles_iff, hsettle] at hslots
    cases hslots
    exact ⟨hkind, (hfield .footer).1, (hfield .footer).2⟩

end Config

end StaticSite
