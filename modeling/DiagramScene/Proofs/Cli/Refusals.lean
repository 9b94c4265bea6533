import Mathlib
import DiagramScene.Cli.Run
import DiagramScene.Proofs.Cli.Options
import DiagramScene.Proofs.Json.RoundTrip
import DiagramScene.Proofs.Service.Validation

/-!
# Which scenes are refused

A scene is refused if the request for its image is not valid.  PNG images go through the service,
which reads the request from its text, and all other images are made of the request as it is.  The
text of a request says the same as the request, so both refuse the same scenes with the same message,
but for the nesting: elements that stand alone are wrapped into an object, which is one level more,
and the service reads the text with the limit with which the input has been read
(`same_refusals_iff`).
-/

namespace DiagramScene.Cli

open Service

variable {α β σ : Type}

/-- The message of a check that fails. -/
def fault? : Checked α → Option String
  | .ok _ => none
  | .error e => some e.message

/-- The message of a run that finds no valid request, by itself or through the service.  What goes
wrong before and after that is no refusal. -/
def refusal? : Ran α → Option String
  | .error (.invalid e) => some e.message
  | .error (.refused status message) => if status = 400 then some message else none
  | _ => none

/-- What is done with a result changes nothing about refusals. -/
theorem refusal?_map (f : α → β) (outcome : Ran α) :
    refusal? (do return f (← outcome)) = refusal? outcome := by
  cases outcome with
  | ok a => rfl
  | error e => cases e <;> rfl

/-! ### Through the service -/

/-- The message of an error is read back from the response. -/
theorem errorMessage?_error (status : Nat) (message : String) :
    (Response.error status message).errorMessage? = some message := by
  have hwellFormed : (Response.errorBody message).WellFormed :=
    .obj (List.nodup_singleton _) fun m hm => List.mem_singleton.mp hm ▸ .str message
  have hread : Json.read Json.nestingLimit
      (Text.Utf8.encode (Json.compact (Response.errorBody message))) =
        .ok (Response.errorBody message) :=
    Json.read_compact hwellFormed nofun (show 1 < 128 by decide)
  change (do
    let value ← (Json.read Json.nestingLimit
      (Text.Utf8.encode (Json.compact (Response.errorBody message)))).toOption
    (← value.get? "error").text?) = some message
  rw [hread]
  rfl

/-- An error of the service is handed on with its status and its message. -/
theorem contentOf_respond_error (e : ServiceError) :
    contentOf (Server.respond (.error e)) = .error (.refused e.status e.responseMessage) := by
  have hfails : (Server.respond (.error e)).isSuccess = false := by
    change decide (200 ≤ e.status ∧ e.status < 300) = false
    unfold ServiceError.status
    cases e.isClientError <;> decide
  unfold contentOf
  rw [hfails, if_neg Bool.false_ne_true]
  change Except.error (CliError.refused e.status
    ((Response.error e.status e.responseMessage).errorMessage?.getD "")) = _
  rw [errorMessage?_error]
  rfl

/-- A response that carries an image is no refusal, and neither is an error that is not the
caller's. -/
theorem refusal?_respond {result : Except ServiceError Image}
    (h : ∀ e, result = .error e → e.isClientError = false) :
    refusal? (contentOf (Server.respond result)) = none := by
  cases result with
  | ok image => rfl
  | error e =>
    rw [contentOf_respond_error, ServiceError.status, h e rfl]
    rfl

/-- Once there is a scene, no error is the caller's. -/
theorem isClientError_of_run {facesIn : String → Option Nat} {server : Server}
    {scene : Scene × σ} {s : σ} {e : ServiceError}
    (h : (server.run facesIn (.ok scene) s).1 = .error e) : e.isClientError = false := by
  unfold Server.run at h
  dsimp only at h
  split at h
  · cases h
    rfl
  · unfold Server.imageOf at h
    dsimp only at h
    split at h
    · cases h
      rfl
    · rename_i rasterizer _ _
      cases hresult : (rasterizer scene.1).result with
      | ok image =>
        rw [hresult] at h
        exact nomatch h
      | error fault =>
        rw [hresult] at h
        cases h
        rfl

/-- The service refuses the requests that are not valid. -/
theorem refusal?_answerScene (facesIn : String → Option Nat) (source : IdSource σ)
    (server : Server) (body : Bytes) (s : σ) :
    refusal? (contentOf (server.answerScene facesIn source body s).1) =
      fault? (SceneRequest.ofBytes body) := by
  unfold Server.answerScene
  cases SceneRequest.ofBytes body with
  | error e =>
    dsimp only
    rw [contentOf_respond_error]
    rfl
  | ok request => exact refusal?_respond fun _ he => isClientError_of_run he

/-- A request is read back from what is sent, unless it is nested too deep. -/
theorem bodyMembers_sent {payload : Members} (hpayload : (Json.obj payload).WellFormed)
    (hfloats : (Json.obj payload).FloatsReadBack) :
    bodyMembers (sent payload) =
      if (Json.obj payload).depth < Json.nestingLimit then .ok payload else .error .noObject := by
  have hiff (j : Json) :
      Json.read Json.nestingLimit (Text.Utf8.encode (Json.compact (.obj payload))) = .ok j ↔
        j = .obj payload ∧ (Json.obj payload).depth < Json.nestingLimit :=
    Json.read_compact_iff hpayload hfloats (by decide)
  unfold bodyMembers sent
  split
  · rename_i ms hread
    obtain ⟨hms, hdepth⟩ := (hiff _).mp hread
    cases hms
    rw [if_pos hdepth]
  · rename_i hother
    split
    · rename_i hdepth
      exact absurd ((hiff _).mpr ⟨rfl, hdepth⟩) (hother payload)
    · rfl

/-! ### The same message -/

/-- The one message that says that there is no object. -/
theorem message_ne_noObject {e : ValidationError} (h : e ≠ .noObject) :
    e.message ≠ ValidationError.noObject.message := by
  -- the messages about numbers and members end with other characters
  have hlast (key : String) {type : String} (htype : type.toList.getLast? ≠ some 'y')
      (hne : type.toList ≠ []) : key ++ " must be " ++ type ≠ ValidationError.noObject.message := by
    intro heq
    have hlast := congrArg (fun message => message.toList.getLast?) heq
    rw [String.toList_append, List.getLast?_append_of_ne_nil _ hne] at hlast
    exact htype hlast
  cases e with
  | noObject => exact absurd rfl h
  | noElements => decide +kernel
  | noDiagram => decide +kernel
  | badNumber key range =>
    cases range with
    | positive => exact hlast key (by decide +kernel) (by decide +kernel)
    | nonNegative => exact hlast key (by decide +kernel) (by decide +kernel)
    | share => exact hlast key (by decide +kernel) (by decide +kernel)
  | badMember key type =>
    cases type with
    | text => exact hlast key (by decide +kernel) (by decide +kernel)
    | bool => exact hlast key (by decide +kernel) (by decide +kernel)
    | object => exact hlast key (by decide +kernel) (by decide +kernel)
  | badElement index error =>
    intro heq
    have hprefix := congrArg (fun message => message.toList.take 9) heq
    have hmessage : (ValidationError.badElement index error).message =
        "Invalid element at index " ++ toString index ++ ": " ++ error.message := rfl
    rw [hmessage, String.append_assoc, String.append_assoc, String.toList_append,
      List.take_append_of_le_length (by decide +kernel)] at hprefix
    exact absurd hprefix (by decide +kernel)

/-- Members are never refused as no object. -/
theorem noObject_notMem_faults (body : Members) : .noObject ∉ SceneRequest.faults body := by
  have hmissing : .noObject ∉ SceneRequest.missingElements body := by
    unfold SceneRequest.missingElements
    split <;> simp
  have hbad : .noObject ∉ SceneRequest.badElements body := by
    unfold SceneRequest.badElements
    split
    · intro hmem
      obtain ⟨⟨value, index⟩, -, hfault⟩ := List.mem_filterMap.mp hmem
      dsimp only at hfault
      split at hfault
      · cases hfault
      · cases hfault
    · exact List.not_mem_nil
  intro hmem
  simp only [SceneRequest.faults, paramFaults, List.flatten_cons, List.flatten_nil,
    List.append_nil, List.mem_append] at hmem
  rcases hmem with h | (h | h | h | h | h | h) | h | h | h
  · exact hmissing h
  · cases eq_of_mem_memberFaults h
  · cases eq_of_mem_memberFaults h
  · cases eq_of_mem_memberFaults h
  · cases eq_of_mem_memberFaults h
  · cases eq_of_mem_memberFaults h
  · cases eq_of_mem_memberFaults h
  · cases eq_of_mem_memberFaults h
  · cases eq_of_mem_memberFaults h
  · exact hbad h

/-- Members are never refused with the message that there is no object. -/
theorem fault?_ofMembers_ne (body : Members) :
    fault? (SceneRequest.ofMembers body) ≠ some ValidationError.noObject.message := by
  cases hcheck : SceneRequest.ofMembers body with
  | ok request => exact nofun
  | error e =>
    have hhead := ((SceneRequest.reports_ofMembers body).eq_error_iff e).mp hcheck
    have hne : e ≠ .noObject := by
      rintro rfl
      exact noObject_notMem_faults body (List.mem_of_head? hhead)
    exact fun heq => message_ne_noObject hne (Option.some.inj heq)

/-! ### Made directly -/

/-- What goes wrong while an image is rendered is no refusal. -/
theorem refusal?_rendering (rendering : Rendering) :
    refusal? (do
      let image ← rendering.result.mapError (CliError.raster · rendering.diagnostics)
      return Content.image image) = none := by
  cases rendering.result with
  | error e => rfl
  | ok image => rfl

/-- What goes wrong with an image that is made directly is no refusal. -/
theorem refusal?_renderDirectly (world : World) (format : Format) (scene : Scene) :
    refusal? (renderDirectly world format scene) = none := by
  unfold renderDirectly
  cases Fonts.load world.facesIn world.settings.fonts with
  | error e => rfl
  | ok fonts => exact refusal?_rendering _

/-- A request for an image that is made directly is refused if its members are. -/
theorem refusal?_renderPayload (source : IdSource σ) (world : World) {format : Format}
    (hformat : format ≠ .png) (payload : Members) (s : σ) :
    refusal? (renderPayload source world format payload s) =
      fault? (SceneRequest.ofMembers payload) := by
  unfold renderPayload
  rw [if_neg hformat]
  cases SceneRequest.ofMembers payload with
  | error e => rfl
  | ok request => exact refusal?_renderDirectly world format _

/-- A request for a PNG image is refused if its text is. -/
theorem refusal?_renderPayload_png (source : IdSource σ) (world : World) (payload : Members)
    (s : σ) :
    refusal? (renderPayload source world .png payload s) =
      fault? (SceneRequest.ofBytes (sent payload)) := by
  unfold renderPayload
  rw [if_pos rfl]
  exact refusal?_answerScene world.facesIn source (Server.sceneOnly world.settings) (sent payload) s

/-- A PNG image is refused like another one, unless the request is nested too deep to be read. -/
theorem refusal?_renderPayload_png_eq {payload : Members}
    (hpayload : (Json.obj payload).WellFormed) (hfloats : (Json.obj payload).FloatsReadBack)
    (source : IdSource σ) (world : World) (s : σ) :
    refusal? (renderPayload source world .png payload s) =
      if (Json.obj payload).depth < Json.nestingLimit then fault? (SceneRequest.ofMembers payload)
      else some ValidationError.noObject.message := by
  rw [refusal?_renderPayload_png, SceneRequest.ofBytes, bodyMembers_sent hpayload hfloats]
  split
  · rfl
  · rfl

/-! ### The input and the options -/

/-- The request of a text is the object in it, or the array in it as the elements. -/
theorem scenePayload_eq_ok {text : String} {payload : Members}
    (h : scenePayload text = .ok payload) :
    Json.readText text = .ok (.obj payload) ∨
      ∃ items, Json.readText text = .ok (.arr items) ∧ payload = [("elements", .arr items)] := by
  unfold scenePayload readJson at h
  cases hread : Json.readText text with
  | error e =>
    rw [hread] at h
    exact nomatch h
  | ok j =>
    rw [hread] at h
    cases j with
    | obj ms =>
      cases h
      exact .inl rfl
    | arr items =>
      cases h
      exact .inr ⟨items, rfl, rfl⟩
    | null | bool | num | str => exact nomatch h

/-- The request of a text is well formed, and its numbers are those of the text. -/
theorem wellFormed_of_scenePayload {text : String} {payload : Members}
    (h : scenePayload text = .ok payload)
    (hfloats : ∀ j, Json.readText text = .ok j → j.FloatsReadBack) :
    (Json.obj payload).WellFormed ∧ (Json.obj payload).FloatsReadBack := by
  obtain hread | ⟨items, hread, rfl⟩ := scenePayload_eq_ok h
  · exact ⟨Json.wellFormed_of_readText hread, hfloats _ hread⟩
  · have hwellFormed := Json.wellFormed_of_readText hread
    refine ⟨.obj (List.nodup_singleton _) fun m hm => List.mem_singleton.mp hm ▸ hwellFormed, ?_⟩
    intro x hx
    refine hfloats _ hread x ?_
    simpa [Json.floats, Json.floatsOfMembers] using hx

variable {payload output : Members}

/-- A request with flags put into it is well formed. -/
theorem wellFormed_putAll (hpayload : (Json.obj payload).WellFormed)
    (houtput : ∀ m ∈ output, IsFlag m) : (Json.obj (payload.putAll output)).WellFormed := by
  cases hpayload with
  | obj hkeys hvalues =>
    refine .obj (Keyed.nodup_keys_putAll hkeys output) fun m hm => ?_
    rcases Keyed.mem_or_mem_of_mem_putAll hm with hm | hm
    · exact hvalues m hm
    · exact (houtput m hm).wellFormed

/-- The numbers of a request with flags put into it are those of both. -/
theorem floatsReadBack_putAll (hpayload : (Json.obj payload).FloatsReadBack)
    (houtput : (Json.obj output).FloatsReadBack) :
    (Json.obj (payload.putAll output)).FloatsReadBack := by
  intro x hx
  rw [Json.floats, Json.floatsOfMembers_eq] at hx
  obtain ⟨m, hm, hx⟩ := List.mem_flatMap.mp hx
  rcases Keyed.mem_or_mem_of_mem_putAll hm with hm | hm
  · exact hpayload.member m hm x hx
  · exact houtput.member m hm x hx

/-- Flags do not nest a request deeper. -/
theorem depth_putAll_le {n : Nat} (hpayload : (Json.obj payload).depth ≤ n + 1)
    (houtput : ∀ m ∈ output, IsFlag m) : (Json.obj (payload.putAll output)).depth ≤ n + 1 := by
  refine Json.depth_obj_le_iff.mpr fun m hm => ?_
  rcases Keyed.mem_or_mem_of_mem_putAll hm with hm | hm
  · exact Json.depth_obj_le_iff.mp hpayload m hm
  · exact (houtput m hm).depth_eq.trans_le (Nat.zero_le n)

/-- Elements that are wrapped into a request are nested one deeper, whatever the flags are. -/
theorem depth_putAll_elements_le_iff {elements : Json} {n : Nat}
    (houtput : ∀ m ∈ output, IsFlag m) :
    (Json.obj (Keyed.putAll [("elements", elements)] output)).depth ≤ n + 1 ↔
      elements.depth ≤ n := by
  constructor
  · intro h
    have hkey : "elements" ∉ Keyed.keys output := by
      intro hmem
      obtain ⟨m, hm, hkey⟩ := List.mem_map.mp hmem
      exact (houtput m hm).key_ne hkey
    have hmem : ("elements", elements) ∈ Keyed.putAll [("elements", elements)] output :=
      Keyed.mem_of_get? (Keyed.get?_putAll_of_notMem hkey)
    exact Json.depth_obj_le_iff.mp h _ hmem
  · intro h
    refine depth_putAll_le ?_ houtput
    exact Json.depth_obj_le_iff.mpr fun m hm => List.mem_singleton.mp hm ▸ h

/-! ### Runs -/

/-- The arguments with another format. -/
def Args.withFormat (args : Args) (format : Format) : Args :=
  { args with options := { args.options with format := some format } }

/-- The text is an array that cannot be nested one level deeper. -/
def NestedToLimit (text : String) : Prop :=
  ∃ items, Json.readText text = .ok (.arr items) ∧ (Json.arr items).depth + 1 = Json.nestingLimit

/-- A run refuses the request of its input with the flags put into it. -/
theorem refusal?_runScene_eq {text : String} (h : scenePayload text = .ok payload)
    (source : IdSource σ) (world : World) (args : Args) (format : Format) (s : σ) :
    refusal? (runScene source world (args.withFormat format) text s) =
      refusal? (renderPayload source world format (payload.putAll args.options.output) s) := by
  unfold runScene
  rw [h]
  exact refusal?_map _ _

/-- The request of an array is there. -/
theorem NestedToLimit.exists_scenePayload {text : String} (h : NestedToLimit text) :
    ∃ payload, scenePayload text = .ok payload := by
  obtain ⟨items, hread, -⟩ := h
  refine ⟨[("elements", .arr items)], ?_⟩
  unfold scenePayload readJson
  rw [hread]
  rfl

/-- The request with its flags is nested too deep to be read exactly if the text is an array that
cannot be nested one level deeper. -/
theorem depth_lt_nestingLimit_iff {text : String} (h : scenePayload text = .ok payload)
    (houtput : ∀ m ∈ output, IsFlag m) :
    (Json.obj (payload.putAll output)).depth < Json.nestingLimit ↔ ¬NestedToLimit text := by
  have hlimit {n : Nat} : n < Json.nestingLimit ↔ n ≤ 126 + 1 := Nat.lt_succ_iff
  obtain hread | ⟨items, hread, rfl⟩ := scenePayload_eq_ok h
  · have hdepth := hlimit.mp (Json.depth_lt_of_read (by decide) hread)
    refine iff_of_true (hlimit.mpr (depth_putAll_le hdepth houtput)) ?_
    rintro ⟨items, hitems, -⟩
    exact nomatch hread.symm.trans hitems
  · have hdepth : (Json.arr items).depth ≤ 127 :=
      hlimit.mp (Json.depth_lt_of_read (by decide) hread)
    rw [hlimit, depth_putAll_elements_le_iff houtput]
    constructor
    · rintro hle ⟨items', hread', hdepth'⟩
      cases hread.symm.trans hread'
      rw [Json.nestingLimit] at hdepth'
      omega
    · intro hnot
      have hne : (Json.arr items).depth + 1 ≠ 128 := fun heq => hnot ⟨items, hread, heq⟩
      omega

/-- A PNG image of a scene is refused exactly like one in another format, with the same message,
unless the scene is an array that cannot be nested one level deeper.  The PNG image of such an array
is refused as no JSON object, and no other image is. -/
theorem same_refusals_iff {words : List String} {args : Args}
    (hwords : Args.ofWords? words = some args) {text : String}
    (htext : ∀ j, Json.readText text = .ok j → j.FloatsReadBack)
    (houtput : (Json.obj args.options.output).FloatsReadBack) {format : Format}
    (hformat : format ≠ .png) (source : IdSource σ) (world : World) (s : σ) :
    (refusal? (runScene source world (args.withFormat .png) text s) =
        refusal? (runScene source world (args.withFormat format) text s) ↔ ¬NestedToLimit text) ∧
      (NestedToLimit text →
        refusal? (runScene source world (args.withFormat .png) text s) =
          some "Invalid JSON body") := by
  cases hpayload : scenePayload text with
  | error e =>
    have hnot : ¬NestedToLimit text := fun h => by
      obtain ⟨payload, hok⟩ := h.exists_scenePayload
      exact nomatch hpayload.symm.trans hok
    have herror (format : Format) :
        runScene source world (args.withFormat format) text s = .error e := by
      unfold runScene
      rw [hpayload]
      rfl
    exact ⟨iff_of_true (by rw [herror, herror]) hnot, fun h => absurd h hnot⟩
  | ok payload =>
    have hflags := asksFlags_of_ofWords? hwords
    obtain ⟨hwellFormed, hfloats⟩ := wellFormed_of_scenePayload hpayload htext
    have hpng := refusal?_renderPayload_png_eq (wellFormed_putAll hwellFormed hflags)
      (floatsReadBack_putAll hfloats houtput) source world s
    have hother := refusal?_renderPayload source world hformat
      (payload.putAll args.options.output) s
    have hdepth := depth_lt_nestingLimit_iff hpayload hflags
    rw [refusal?_runScene_eq hpayload, refusal?_runScene_eq hpayload, hpng, hother]
    by_cases hnested : NestedToLimit text
    · rw [if_neg fun h => hdepth.mp h hnested]
      refine ⟨iff_of_false ?_ (not_not_intro hnested), fun _ => rfl⟩
      exact (fault?_ofMembers_ne _).symm
    · rw [if_pos (hdepth.mpr hnested)]
      exact ⟨iff_of_true rfl hnested, fun h => absurd h hnested⟩

/-! ### A scene that is refused, and one that need not be -/

/-- A scene with one box, which carries data. -/
def boxWith (data : Json) : Json :=
  .arr [.obj [("id", .str "a"), ("type", .str "rectangle"), ("width", .int 10),
    ("height", .int 10), ("customData", data)]]

/-- The numbers of the box itself are integers. -/
theorem floatsReadBack_boxWith {data : Json} (hdata : data.floats = []) :
    (boxWith data).FloatsReadBack := by
  have hnone : (boxWith data).floats = [] := by
    simp [boxWith, Json.floats, Json.floatsOfItems, Json.floatsOfMembers, Json.int, hdata]
  intro x hx
  rw [hnone] at hx
  exact absurd hx List.not_mem_nil

/-- A scene with one box is read back from its text, if the data are not nested too deep. -/
theorem readText_boxWith {data : Json} (hdata : data.WellFormed) (hfloats : data.floats = [])
    (hdepth : data.depth < 126) :
    Json.readText (Json.compact (boxWith data)) = .ok (boxWith data) := by
  have hint : (Number.int 10).InRange := ⟨by decide, by decide⟩
  have hwellFormed : (boxWith data).WellFormed := by
    refine .arr (List.forall_mem_singleton.mpr (.obj (by simp) ?_))
    simp only [List.forall_mem_cons]
    exact ⟨.str _, .str _, .num hint, .num hint, hdata, nofun⟩
  have hnested : (boxWith data).depth < Json.nestingLimit := by
    simp [boxWith, Json.depth, Json.depthItems, Json.depthMembers, Json.nestingLimit, Json.int]
    omega
  exact Json.read_compact hwellFormed (floatsReadBack_boxWith hfloats) hnested

/-- Nothing is around a run. -/
def noWorld : World := ⟨[], fun _ => .error .missing, .default, fun _ => none, 0⟩

/-- An image of a scene is wanted, of a quality that no image can have. -/
def qualityArgs : Args :=
  ⟨.scene, some "scene.json", { Options.none with output := [("quality", .float 1.5)] }⟩

/-- A quality above one is refused with the same message in both formats. -/
theorem same_refusals_qualityArgs :
    Args.ofWords? ["render", "--quality", "1.5", "scene.json"] = some qualityArgs ∧
      refusal? (runScene (.random 0) noWorld (qualityArgs.withFormat .svg)
        (Json.compact (boxWith .null)) (mkStdGen 0)) = some "quality must be a number in (0, 1]" ∧
      refusal? (runScene (.random 0) noWorld (qualityArgs.withFormat .png)
        (Json.compact (boxWith .null)) (mkStdGen 0)) =
      refusal? (runScene (.random 0) noWorld (qualityArgs.withFormat .svg)
        (Json.compact (boxWith .null)) (mkStdGen 0)) := by
  have hwords : Args.ofWords? ["render", "--quality", "1.5", "scene.json"] = some qualityArgs := rfl
  have hread : Json.readText (Json.compact (boxWith .null)) = .ok (boxWith .null) :=
    readText_boxWith .null rfl (by decide)
  have htext : ∀ j, Json.readText (Json.compact (boxWith .null)) = .ok j → j.FloatsReadBack := by
    intro j hj
    cases hread.symm.trans hj
    exact floatsReadBack_boxWith rfl
  have hfloat : Json.ReadsBack (.float 1.5) := by
    have hbytes : Text.Utf8.encode (Json.numberText (.float 1.5)) = [0x31, 0x2E, 0x35] := by
      decide +kernel
    rw [Json.ReadsBack, hbytes, Json.readValue]
    rfl
  have houtput : (Json.obj qualityArgs.options.output).FloatsReadBack := by
    intro x hx
    cases List.mem_singleton.mp hx
    exact hfloat
  have hnot : ¬NestedToLimit (Json.compact (boxWith .null)) := by
    rintro ⟨items, hitems, hdepth⟩
    cases hread.symm.trans hitems
    exact absurd hdepth (by decide)
  have hsame := same_refusals_iff hwords htext houtput (by decide : Format.svg ≠ .png) (.random 0)
    noWorld (mkStdGen 0)
  exact ⟨hwords, by decide +kernel, hsame.1.mpr hnot⟩

/-- Arrays inside of one another. -/
def nestedArrays : Nat → Json
  | 0 => .arr []
  | n + 1 => .arr [nestedArrays n]

/-- Arrays inside of one another are well formed. -/
theorem wellFormed_nestedArrays (n : Nat) : (nestedArrays n).WellFormed := by
  induction n with
  | zero => exact .arr nofun
  | succ n ih => exact .arr (List.forall_mem_singleton.mpr ih)

/-- There are no numbers in them. -/
theorem floats_nestedArrays (n : Nat) : (nestedArrays n).floats = [] := by
  induction n with
  | zero => rfl
  | succ n ih => rw [nestedArrays, Json.floats, Json.floatsOfItems, ih, Json.floatsOfItems]; rfl

/-- They are nested as deep as there are arrays. -/
theorem depth_nestedArrays (n : Nat) : (nestedArrays n).depth = n + 1 := by
  induction n with
  | zero => rfl
  | succ n ih => rw [nestedArrays, Json.depth, Json.depthItems, ih, Json.depthItems, Nat.max_zero]

/-- The text of a box whose data are nested as deep as they can be in an array of elements. -/
def deepText : String := Json.compact (boxWith (nestedArrays 124))

/-- The box with deep data makes a valid request, and its PNG image is refused all the same. -/
theorem different_refusals_deepText :
    scenePayload deepText = .ok [("elements", boxWith (nestedArrays 124))] ∧
      refusal? (runScene (.random 0) noWorld (Args.withFormat ⟨.scene, none, .none⟩ .svg) deepText
        (mkStdGen 0)) = none ∧
      refusal? (runScene (.random 0) noWorld (Args.withFormat ⟨.scene, none, .none⟩ .png) deepText
        (mkStdGen 0)) = some "Invalid JSON body" := by
  have hread : Json.readText deepText = .ok (boxWith (nestedArrays 124)) :=
    readText_boxWith (wellFormed_nestedArrays 124) (floats_nestedArrays 124)
      (by rw [depth_nestedArrays]; decide)
  have hpayload : scenePayload deepText = .ok [("elements", boxWith (nestedArrays 124))] := by
    unfold scenePayload readJson
    rw [hread]
    rfl
  have hfloats : ∀ j, Json.readText deepText = .ok j → j.FloatsReadBack := by
    intro j hj
    cases hread.symm.trans hj
    exact floatsReadBack_boxWith (floats_nestedArrays 124)
  obtain ⟨hwellFormed, hfloats⟩ := wellFormed_of_scenePayload hpayload hfloats
  refine ⟨hpayload, ?_, ?_⟩
  · rw [refusal?_runScene_eq hpayload, refusal?_renderPayload _ _ (by decide)]
    decide +kernel
  · rw [refusal?_runScene_eq hpayload]
    change refusal? (renderPayload _ _ _ [("elements", boxWith (nestedArrays 124))] _) = _
    rw [refusal?_renderPayload_png_eq hwellFormed hfloats, if_neg (by decide +kernel)]
    rfl

end DiagramScene.Cli
