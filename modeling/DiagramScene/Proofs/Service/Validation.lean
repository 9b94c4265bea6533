import Mathlib
import DiagramScene.Proofs.Keyed
import DiagramScene.Proofs.Reports
import DiagramScene.Service.Request

/-!
# Which requests are accepted

A request is read from the members of an object.  `SceneRequest.Valid` and `DiagramRequest.Valid` say
what these have to satisfy, `SceneRequest.faults` and `DiagramRequest.faults` list all that is wrong
with them, in the order of the checks, and `SceneRequest.Describes` and `DiagramRequest.Describes` say
how the request follows from them.

Every check `Reports` the faults that it looks for, and the faults of a request are put together along
its checks.  `Checks` is the law that both kinds of requests obey; that they do is the main statement,
`checks_requests`.
-/

namespace DiagramScene.Service

variable {α : Type}

/-! ### Members -/

/-- A member is absent or null, or it has a property. -/
def Allows (body : Members) (key : String) (P : Json → Prop) : Prop :=
  ∀ value, body.get? key = some value → value = .null ∨ P value

/-- What a member says: nothing if it is absent or null, and else what is read from it. -/
def Says (body : Members) (key : String) (read : Json → Option α) : Option α → Prop
  | none => body.get? key = none ∨ body.get? key = some .null
  | some a => ∃ value, body.get? key = some value ∧ read value = some a

/-- A number in a range. -/
def Range.Holds (x : Float) : Range → Prop
  | positive => 0.0 < x
  | nonNegative => 0.0 ≤ x
  | share => 0.0 < x ∧ x ≤ 1.0

/-- A number in a range, as a value. -/
def InRange (range : Range) (value : Json) : Prop := ∃ x, value.number? = some x ∧ range.Holds x

/-- What is wrong with a member that has to be absent or null, or to be read as something. -/
def memberFaults (body : Members) (key : String) (read : Json → Option α)
    (error : ValidationError) : List ValidationError :=
  if (body.get? key).all fun value => value.isNull || (read value).isSome then [] else [error]

/-- What is wrong with a member that has to be a number in a range. -/
def numberFaults (body : Members) (key : String) (range : Range) : List ValidationError :=
  memberFaults body key (fun value => value.number?.filter range.admits) (.badNumber key range)

/-- What is wrong with a member that has to be an object. -/
def objectFaults (body : Members) (key : String) : List ValidationError :=
  memberFaults body key Json.members? (.badMember key .object)

/-- What is wrong with the output parameters of a request, in the order of the checks. -/
def paramFaults (body : Members) : List ValidationError :=
  [numberFaults body "exportScale" .positive, numberFaults body "exportPadding" .nonNegative,
    numberFaults body "maxSize" .positive, numberFaults body "quality" .share,
    memberFaults body "backgroundColor" Json.text? (.badMember "backgroundColor" .text),
    memberFaults body "darkMode" Json.bool? (.badMember "darkMode" .bool)].flatten

/-- Nothing is wrong with the output parameters of a request. -/
structure ParamsValid (body : Members) : Prop where
  exportScale : Allows body "exportScale" (InRange .positive)
  exportPadding : Allows body "exportPadding" (InRange .nonNegative)
  maxSize : Allows body "maxSize" (InRange .positive)
  quality : Allows body "quality" (InRange .share)
  backgroundColor : Allows body "backgroundColor" fun value => ∃ color, value = .str color
  darkMode : Allows body "darkMode" fun value => ∃ dark, value = .bool dark

/-- The output parameters that the members of a request state. -/
structure ParamsStated (body : Members) (params : OutputParams) : Prop where
  exportScale : Says body "exportScale" Json.number? params.exportScale
  exportPadding : Says body "exportPadding" Json.number? params.exportPadding
  maxSize : Says body "maxSize" Json.number? params.maxSize
  quality : Says body "quality" Json.number? params.quality
  backgroundColor : Says body "backgroundColor" Json.text? params.backgroundColor
  darkMode : Says body "darkMode" Json.bool? params.darkMode

/-! ### Requests -/

/-- What is wrong with the elements, of which the first one has the given index. -/
def elementFaults (index : Nat) (values : List Json) : List ValidationError :=
  (values.zipIdx index).filterMap fun entry => match Element.codec.decode entry.1 with
    | .error e => some (.badElement entry.2 e)
    | .ok _ => none

namespace SceneRequest

/-- There have to be elements. -/
def missingElements (body : Members) : List ValidationError :=
  match body.get? "elements" with
  | some (.arr (_ :: _)) => []
  | _ => [.noElements]

/-- What is wrong with the elements that there are. -/
def badElements (body : Members) : List ValidationError :=
  match body.get? "elements" with
  | some (.arr values) => elementFaults 0 values
  | _ => []

/-- What is wrong with a request for the image of elements, in the order of the checks. -/
def faults (body : Members) : List ValidationError :=
  [missingElements body, paramFaults body, objectFaults body "appState", objectFaults body "files",
    badElements body].flatten

/-- Nothing is wrong with a request for the image of elements. -/
structure Valid (body : Members) : Prop where
  elements : ∃ values, body.get? "elements" = some (.arr values) ∧ values ≠ [] ∧
    ∀ value ∈ values, ∃ e, Element.codec.decode value = .ok e
  params : ParamsValid body
  appState : Allows body "appState" fun value => ∃ settings, value = .obj settings
  files : Allows body "files" fun value => ∃ files, value = .obj files

/-- The request that members state. -/
structure Describes (body : Members) (request : SceneRequest) : Prop where
  elements : ∃ values, body.get? "elements" = some (.arr values) ∧
    List.Forall₂ (fun value e => Element.codec.decode value = .ok e) values request.elements
  params : ParamsStated body request.params
  appState : Says body "appState" Json.members? request.params.appState
  files : ∃ files, Says body "files" Json.members? files ∧ request.files = files.getD []

end SceneRequest

namespace DiagramRequest

/-- There has to be a diagram. -/
def missingDiagram (body : Members) : List ValidationError :=
  match body.get? "mermaid" with
  | some (.str _) => []
  | _ => [.noDiagram]

/-- What is wrong with a request for the image of a diagram, in the order of the checks. -/
def faults (body : Members) : List ValidationError :=
  [missingDiagram body, paramFaults body, objectFaults body "config"].flatten

/-- Nothing is wrong with a request for the image of a diagram. -/
structure Valid (body : Members) : Prop where
  diagram : ∃ text, body.get? "mermaid" = some (.str text)
  params : ParamsValid body
  config : Allows body "config" fun value => ∃ config, value = .obj config

/-- The request that members state. -/
structure Describes (body : Members) (request : DiagramRequest) : Prop where
  diagram : body.get? "mermaid" = some (.str request.diagram)
  params : ParamsStated body request.params
  appState : request.params.appState = none
  config : ∃ config, Says body "config" Json.members? config ∧
    request.config = config.map .obj

end DiagramRequest

/-! ### Optional members -/

/-- The value that is null. -/
theorem isNull_iff {value : Json} : value.isNull = true ↔ value = .null := by
  cases value <;> simp [Json.isNull]

/-- Nothing is wrong with a member exactly when it is absent or null or can be read. -/
theorem memberFaults_eq_nil_iff {body : Members} {key : String} {read : Json → Option α}
    {error : ValidationError} : memberFaults body key read error = [] ↔
      Allows body key fun value => ∃ a, read value = some a := by
  unfold memberFaults Allows
  cases body.get? key with
  | none => simp
  | some value => simp [isNull_iff, Option.isSome_iff_exists, or_iff_not_imp_left]

/-- Nothing is wrong with a number exactly when it is absent or null or in its range. -/
theorem numberFaults_eq_nil_iff {body : Members} {key : String} {range : Range} :
    numberFaults body key range = [] ↔ Allows body key (InRange range) := by
  have hadmits (x : Float) : range.admits x = true ↔ range.Holds x := by
    cases range <;> simp [Range.admits, Range.Holds]
  have hread (value : Json) :
      (∃ x, value.number?.filter range.admits = some x) ↔ InRange range value := by
    simp [InRange, Option.filter_eq_some_iff, hadmits]
  simp only [numberFaults, memberFaults_eq_nil_iff, hread]

/-- Nothing is wrong with an object exactly when it is absent or null or an object. -/
theorem objectFaults_eq_nil_iff {body : Members} {key : String} :
    objectFaults body key = [] ↔ Allows body key fun value => ∃ ms, value = .obj ms := by
  have hread (value : Json) (ms : Members) : value.members? = some ms ↔ value = .obj ms := by
    cases value <;> simp [Json.members?]
  simp only [objectFaults, memberFaults_eq_nil_iff, hread]

/-- An optional member is reported unless it is absent or null or can be read. -/
theorem reports_optionalMember (read : Json → Option α) (error : ValidationError)
    (body : Members) (key : String) : Reports (Says body key read)
      (memberFaults body key read error) (optionalMember read error body key) := by
  unfold memberFaults optionalMember present?
  cases hget : body.get? key with
  | none => exact .ok (.inl hget)
  | some value =>
    rw [Option.all_some, Option.filter_some]
    by_cases hnull : value = .null
    · subst hnull
      exact .ok (.inr hget)
    · have hvalue : value.isNull = false := Bool.eq_false_iff.mpr fun h => hnull (isNull_iff.mp h)
      rw [hvalue, Bool.false_or, Bool.not_false, if_pos rfl]
      dsimp only
      cases hread : read value with
      | none => exact .error error []
      | some a => exact .ok ⟨value, hget, hread⟩

/-- A number is reported unless it is absent or null or in its range. -/
theorem reports_optionalNumber (body : Members) (key : String) (range : Range) :
    Reports (Says body key Json.number?) (numberFaults body key range)
      (optionalNumber body key range) := by
  refine (reports_optionalMember _ _ body key).imp fun x hx => ?_
  cases x with
  | none => exact hx
  | some x =>
    obtain ⟨value, hget, hread⟩ := hx
    exact ⟨value, hget, (Option.filter_eq_some_iff.mp hread).1⟩

/-- An object is reported unless it is absent or null or an object. -/
theorem reports_optionalObject (body : Members) (key : String) :
    Reports (Says body key Json.members?) (objectFaults body key) (optionalObject body key) :=
  reports_optionalMember _ _ body key

/-! ### Output parameters -/

/-- The output parameters are reported unless nothing is wrong with them. -/
theorem reports_outputParams (body : Members) :
    Reports (fun params => ParamsStated body params ∧ params.appState = none) (paramFaults body)
      (outputParams body) := by
  refine (reports_optionalNumber body _ _).bind fun exportScale hscale => ?_
  refine (reports_optionalNumber body _ _).bind fun exportPadding hpadding => ?_
  refine (reports_optionalNumber body _ _).bind fun maxSize hsize => ?_
  refine (reports_optionalNumber body _ _).bind fun quality hquality => ?_
  refine (reports_optionalMember _ _ body _).bind fun backgroundColor hcolor => ?_
  refine (reports_optionalMember _ _ body _).bind fun darkMode hdark => .ok ⟨?_, rfl⟩
  exact ⟨hscale, hpadding, hsize, hquality, hcolor, hdark⟩

/-- Nothing is wrong with the output parameters exactly when each of them is as it has to be. -/
theorem paramFaults_eq_nil_iff {body : Members} : paramFaults body = [] ↔ ParamsValid body := by
  have htext (value : Json) (color : String) : value.text? = some color ↔ value = .str color := by
    cases value <;> simp [Json.text?]
  have hbool (value : Json) (dark : Bool) : value.bool? = some dark ↔ value = .bool dark := by
    cases value <;> simp [Json.bool?]
  simp only [paramFaults, List.flatten_eq_nil_iff, List.forall_mem_cons,
    numberFaults_eq_nil_iff, memberFaults_eq_nil_iff, htext, hbool]
  constructor
  · rintro ⟨hscale, hpadding, hsize, hquality, hcolor, hdark, -⟩
    exact ⟨hscale, hpadding, hsize, hquality, hcolor, hdark⟩
  · intro h
    exact ⟨h.exportScale, h.exportPadding, h.maxSize, h.quality, h.backgroundColor, h.darkMode,
      nofun⟩

/-! ### Elements -/

/-- Elements are reported unless all of them can be read. -/
theorem reports_readElements (index : Nat) (values : List Json) :
    Reports (List.Forall₂ (fun value e => Element.codec.decode value = .ok e) values)
      (elementFaults index values) (SceneRequest.readElements index values) := by
  induction values generalizing index with
  | nil => exact .ok .nil
  | cons value values ih =>
    unfold SceneRequest.readElements elementFaults
    rw [List.zipIdx_cons, List.filterMap_cons]
    cases hdecode : Element.codec.decode value with
    | error e => exact .error _ _
    | ok e => exact (ih (index + 1)).map fun es hes => .cons hdecode hes

/-- The first fault of elements is the one of the first element that cannot be read. -/
theorem exists_of_head?_elementFaults {index : Nat} {values : List Json} {fault : ValidationError}
    (h : (elementFaults index values).head? = some fault) :
    ∃ before value after e, values = before ++ value :: after ∧
      fault = .badElement (index + before.length) e ∧ Element.codec.decode value = .error e ∧
      ∀ value' ∈ before, ∃ e', Element.codec.decode value' = .ok e' := by
  induction values generalizing index with
  | nil => exact nomatch h
  | cons value values ih =>
    unfold elementFaults at h
    rw [List.zipIdx_cons, List.filterMap_cons] at h
    cases hdecode : Element.codec.decode value with
    | error e =>
      simp only [hdecode, List.head?_cons, Option.some.injEq] at h
      exact ⟨[], value, values, e, rfl, h.symm, hdecode, nofun⟩
    | ok e =>
      simp only [hdecode] at h
      obtain ⟨before, value', after, e', rfl, rfl, herror, hbefore⟩ := ih h
      refine ⟨value :: before, value', after, e', rfl, ?_, herror, ?_⟩
      · rw [List.length_cons, Nat.add_assoc, Nat.add_comm 1]
      · exact List.forall_mem_cons.mpr ⟨⟨e, hdecode⟩, hbefore⟩

/-! ### Requests for the image of elements -/

namespace SceneRequest

/-- Nothing is wrong with elements exactly when all of them can be read. -/
theorem elementFaults_eq_nil_iff (index : Nat) (values : List Json) :
    elementFaults index values = [] ↔ ∀ value ∈ values, ∃ e, Element.codec.decode value = .ok e := by
  induction values generalizing index with
  | nil => exact ⟨fun _ => nofun, fun _ => rfl⟩
  | cons value values ih =>
    rw [List.forall_mem_cons, ← ih (index + 1)]
    unfold elementFaults
    rw [List.zipIdx_cons, List.filterMap_cons]
    cases hdecode : Element.codec.decode value with
    | error e => simp
    | ok e => simp

/-- The elements are reported unless there are some. -/
theorem reports_rawElements (body : Members) :
    Reports (fun values => body.get? "elements" = some (.arr values) ∧ values ≠ [])
      (missingElements body) (rawElements body) := by
  unfold missingElements rawElements
  cases body.get? "elements" with
  | none => exact .error _ _
  | some found =>
    cases found with
    | arr values =>
      cases values with
      | nil => exact .error _ _
      | cons value values => exact .ok ⟨rfl, List.cons_ne_nil value values⟩
    | _ => exact .error _ _

/-- A request is reported unless nothing is wrong with it. -/
theorem reports_ofMembers (body : Members) :
    Reports (Describes body) (faults body) (ofMembers body) := by
  refine (reports_rawElements body).bind fun values hvalues => ?_
  refine (reports_outputParams body).bind fun params hparams => ?_
  refine (reports_optionalObject body _).bind fun appState happState => ?_
  refine (reports_optionalObject body _).bind fun files hfiles => ?_
  have hbad : badElements body = elementFaults 0 values := by rw [badElements, hvalues.1]
  rw [hbad]
  refine (reports_readElements 0 values).bind fun elements helements => .ok ?_
  have hstated := hparams.1
  exact ⟨⟨values, hvalues.1, helements⟩,
    ⟨hstated.exportScale, hstated.exportPadding, hstated.maxSize, hstated.quality,
      hstated.backgroundColor, hstated.darkMode⟩, happState, files, hfiles, rfl⟩

/-- Nothing is wrong with a request exactly when each of its parts is as it has to be. -/
theorem faults_eq_nil_iff {body : Members} : faults body = [] ↔ Valid body := by
  have helements : missingElements body = [] ∧ badElements body = [] ↔
      ∃ values, body.get? "elements" = some (.arr values) ∧ values ≠ [] ∧
        ∀ value ∈ values, ∃ e, Element.codec.decode value = .ok e := by
    unfold missingElements badElements
    constructor
    · rintro ⟨hmissing, hbad⟩
      split at hmissing
      · rename_i value values hget
        rw [hget] at hbad
        exact ⟨_, hget, List.cons_ne_nil _ _, (elementFaults_eq_nil_iff 0 _).mp hbad⟩
      · exact absurd hmissing (List.cons_ne_nil _ _)
    · rintro ⟨values, hget, hne, hvalues⟩
      rw [hget]
      cases values with
      | nil => exact absurd rfl hne
      | cons value values => exact ⟨rfl, (elementFaults_eq_nil_iff 0 _).mpr hvalues⟩
  simp only [faults, List.flatten_eq_nil_iff, List.forall_mem_cons, paramFaults_eq_nil_iff,
    objectFaults_eq_nil_iff]
  constructor
  · rintro ⟨hmissing, hparams, happState, hfiles, hbad, -⟩
    exact ⟨helements.mp ⟨hmissing, hbad⟩, hparams, happState, hfiles⟩
  · intro h
    obtain ⟨hmissing, hbad⟩ := helements.mpr h.elements
    exact ⟨hmissing, h.params, h.appState, h.files, hbad, nofun⟩

end SceneRequest

/-! ### Requests for the image of a diagram -/

namespace DiagramRequest

/-- The diagram is reported unless there is one. -/
theorem reports_diagramText (body : Members) :
    Reports (fun text => body.get? "mermaid" = some (.str text)) (missingDiagram body)
      (diagramText body) := by
  unfold missingDiagram diagramText
  cases body.get? "mermaid" with
  | none => exact .error _ _
  | some found =>
    cases found with
    | str text => exact .ok rfl
    | _ => exact .error _ _

/-- A request is reported unless nothing is wrong with it. -/
theorem reports_ofMembers (body : Members) :
    Reports (Describes body) (faults body) (ofMembers body) := by
  refine (reports_diagramText body).bind fun text htext => ?_
  refine (reports_outputParams body).bind fun params hparams => ?_
  refine (reports_optionalObject body _).bind fun config hconfig => .ok ?_
  exact ⟨htext, hparams.1, hparams.2, config, hconfig, rfl⟩

/-- Nothing is wrong with a request exactly when each of its parts is as it has to be. -/
theorem faults_eq_nil_iff {body : Members} : faults body = [] ↔ Valid body := by
  have hdiagram : missingDiagram body = [] ↔ ∃ text, body.get? "mermaid" = some (.str text) := by
    unfold missingDiagram
    split
    · rename_i text hget
      exact ⟨fun _ => ⟨text, hget⟩, fun _ => rfl⟩
    · rename_i hother
      exact ⟨nofun, fun ⟨text, hget⟩ => absurd hget (hother text)⟩
  simp only [faults, List.flatten_eq_nil_iff, List.forall_mem_cons, paramFaults_eq_nil_iff,
    objectFaults_eq_nil_iff, hdiagram]
  constructor
  · rintro ⟨hdiagram, hparams, hconfig, -⟩
    exact ⟨hdiagram, hparams, hconfig⟩
  · intro h
    exact ⟨h.diagram, h.params, h.config, nofun⟩

end DiagramRequest

/-! ### The law of requests -/

/-- Only the fault of a member is reported for it. -/
theorem eq_of_mem_memberFaults {body : Members} {key : String} {read : Json → Option α}
    {error fault : ValidationError} (h : fault ∈ memberFaults body key read error) :
    fault = error := by
  unfold memberFaults at h
  split at h
  · exact nomatch h
  · exact List.mem_singleton.mp h

/-- No fault of the output parameters is one of an element. -/
theorem badElement_notMem_paramFaults (body : Members) (index : Nat) (e : Json.DecodeError) :
    .badElement index e ∉ paramFaults body := by
  intro hmem
  simp only [paramFaults, List.flatten_cons, List.flatten_nil, List.append_nil, List.mem_append]
    at hmem
  rcases hmem with h | h | h | h | h | h <;> exact nomatch eq_of_mem_memberFaults h

/-- What comes first in two lists, if it is not in the first one. -/
theorem head?_of_notMem_append {a b : List ValidationError} {fault : ValidationError}
    (h : (a ++ b).head? = some fault) (hfault : fault ∉ a) : b.head? = some fault := by
  cases a with
  | nil => exact h
  | cons first a =>
    obtain rfl := Option.some.inj h
    exact absurd (List.mem_cons_self ..) hfault

/-- An element that is reported is the first one that cannot be read. -/
theorem SceneRequest.exists_of_badElement {body : Members} {index : Nat} {e : Json.DecodeError}
    (h : (faults body).head? = some (.badElement index e)) :
    ∃ before value after, body.get? "elements" = some (.arr (before ++ value :: after)) ∧
      before.length = index ∧ Element.codec.decode value = .error e ∧
      ∀ value' ∈ before, ∃ e', Element.codec.decode value' = .ok e' := by
  have hmissing : .badElement index e ∉ missingElements body := by
    unfold missingElements
    split <;> simp
  have hobject (key : String) : .badElement index e ∉ objectFaults body key :=
    fun hmem => nomatch eq_of_mem_memberFaults hmem
  simp only [faults, List.flatten_cons, List.flatten_nil, List.append_nil] at h
  have hbad := head?_of_notMem_append (head?_of_notMem_append (head?_of_notMem_append
    (head?_of_notMem_append h hmissing) (badElement_notMem_paramFaults body index e))
    (hobject "appState")) (hobject "files")
  unfold badElements at hbad
  split at hbad
  · rename_i values hget
    obtain ⟨before, value, after, e', rfl, hfault, herror, hbefore⟩ :=
      exists_of_head?_elementFaults hbad
    obtain ⟨rfl, rfl⟩ := ValidationError.badElement.inj hfault
    exact ⟨before, value, after, hget, (Nat.zero_add _).symm, herror, hbefore⟩
  · exact nomatch hbad

/-- The law of a check of requests: it accepts the valid bodies and no others, the request is the one
that the members describe, a body that is not valid is refused for the first of its faults, and the
order of the members does not count. -/
structure Checks {ρ : Type} (check : Members → Checked ρ) (valid : Members → Prop)
    (faults : Members → List ValidationError) (describes : Members → ρ → Prop) : Prop where
  accepts : ∀ body, (∃ request, check body = .ok request) ↔ valid body
  describes : ∀ body request, check body = .ok request → describes body request
  refuses : ∀ body error, check body = .error error ↔ (faults body).head? = some error
  unordered : ∀ body body', body.Perm body' → (Keyed.keys body).Nodup → check body' = check body

/-- Requests are checked exactly, in one order.  An element is only reported if those before it can
be read. -/
theorem checks_requests :
    Checks SceneRequest.ofMembers SceneRequest.Valid SceneRequest.faults SceneRequest.Describes ∧
    Checks DiagramRequest.ofMembers DiagramRequest.Valid DiagramRequest.faults
      DiagramRequest.Describes ∧
    ∀ body index e, SceneRequest.ofMembers body = .error (.badElement index e) →
      ∃ before value after, body.get? "elements" = some (.arr (before ++ value :: after)) ∧
        before.length = index ∧ Element.codec.decode value = .error e ∧
        ∀ value' ∈ before, ∃ e', Element.codec.decode value' = .ok e' := by
  refine ⟨⟨fun body => ?_, fun body _ => ?_, fun body => ?_, ?_⟩,
    ⟨fun body => ?_, fun body _ => ?_, fun body => ?_, ?_⟩, fun body index e h => ?_⟩
  · exact (SceneRequest.reports_ofMembers body).exists_ok_iff.trans SceneRequest.faults_eq_nil_iff
  · exact (SceneRequest.reports_ofMembers body).of_eq_ok
  · exact (SceneRequest.reports_ofMembers body).eq_error_iff
  · intro body body' hperm hkeys
    have hget := Keyed.get?_perm hperm hkeys
    simp only [SceneRequest.ofMembers, SceneRequest.rawElements, outputParams, optionalNumber,
      optionalText, optionalBool, optionalObject, optionalMember, present?, hget]
  · exact (DiagramRequest.reports_ofMembers body).exists_ok_iff.trans
      DiagramRequest.faults_eq_nil_iff
  · exact (DiagramRequest.reports_ofMembers body).of_eq_ok
  · exact (DiagramRequest.reports_ofMembers body).eq_error_iff
  · intro body body' hperm hkeys
    have hget := Keyed.get?_perm hperm hkeys
    simp only [DiagramRequest.ofMembers, DiagramRequest.diagramText, outputParams, optionalNumber,
      optionalText, optionalBool, optionalObject, optionalMember, present?, hget]
  · exact SceneRequest.exists_of_badElement ((SceneRequest.reports_ofMembers body).eq_error_iff _ |>.mp h)

end DiagramScene.Service
