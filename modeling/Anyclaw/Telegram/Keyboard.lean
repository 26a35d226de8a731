import Anyclaw.Library.Delimited
import Anyclaw.Telegram.Permissions

/-!
# The keyboard of a permission prompt

Each option of a permission request becomes a button.  What the button sends back names the
request and the option, with a colon between them, in at most 64 bytes; a press is taken
apart at the last colon, and the request is looked up by what stands before it.

The functions are `build_permission_keyboard` and `parse_callback_data` of
`ext/channels/telegram/src/permissions.rs`.
-/

namespace Anyclaw

/-! ### Buttons -/

structure InlineKeyboardButton where
  text : String
  callbackData : String
deriving DecidableEq

/-- `64 - 1 - option_id.len()` in `usize`: without overflow checks it wraps around, with them
    it panics. -/
def maxReqLen (overflowChecks : Bool) (optionLen : Nat) : Option Nat :=
  if optionLen ≤ 63 then some (63 - optionLen)
  else if overflowChecks then none
  else some (2 ^ 64 + 63 - optionLen)

/-- What a button sends; `none` stands for a panic. -/
def callbackData (overflowChecks : Bool) (requestId optionId : String) : Option String :=
  let data := requestId ++ ":" ++ optionId
  if data.utf8ByteSize > 64 then
    (maxReqLen overflowChecks optionId.utf8ByteSize).map fun n =>
      String.ofList (requestId.toList.take n) ++ ":" ++ optionId
  else some data

/-- The buttons, all in one row. -/
def buildPermissionKeyboard (overflowChecks : Bool) (requestId : String)
    (options : List PermissionOption) : Option (List InlineKeyboardButton) :=
  options.mapM fun opt =>
    (callbackData overflowChecks requestId opt.optionId).map fun data => ⟨opt.label, data⟩

/-! ### Presses -/

/-- The last colon is the one that has none behind it. -/
theorem parseCallbackData_eq_some_iff {data : String} {response : PermissionResponse} :
    parseCallbackData data = some response ↔
      data = response.requestId ++ ":" ++ response.optionId ∧
        ':' ∉ response.optionId.toList := by
  constructor
  · intro h
    rw [parseCallbackData] at h
    split at h
    · rename_i hcolon
      cases h
      have hcut := Delimited.before_append_after (List.mem_reverse.mpr hcolon)
      have hplain := Delimited.not_mem_before ':' data.toList.reverse
      refine ⟨?_, by simpa [Delimited.before] using hplain⟩
      apply String.toList_inj.mp
      have hdata := congrArg List.reverse hcut
      rw [List.reverse_reverse, List.reverse_append, List.reverse_cons] at hdata
      simp only [String.toList_append, String.toList_ofList]
      exact hdata.symm
    · cases h
  · rintro ⟨rfl, hplain⟩
    have hcolon : ':' ∈ (response.requestId ++ ":" ++ response.optionId).toList := by simp
    have hrev : (response.requestId ++ ":" ++ response.optionId).toList.reverse =
        response.optionId.toList.reverse ++ ':' :: response.requestId.toList.reverse := by simp
    have hbehind : ':' ∉ response.optionId.toList.reverse := by
      rw [List.mem_reverse]
      exact hplain
    rw [parseCallbackData, if_pos hcolon, hrev, Delimited.takeWhile_join hbehind,
      Delimited.dropWhile_join hbehind]
    simp

/-! ### Prompts -/

structure PermissionPrompt where
  requestId : String
  options : List PermissionOption

/-- The prompts that wait for an answer, by request id. -/
structure OutstandingPrompts where
  table : KeyedMap String PermissionPrompt
  keyed : ∀ id p, table.get? id = some p → p.requestId = id

/-- **The keyboard round trip**: every option has a button, which Telegram accepts, and its
    press names this prompt and this option and no other. -/
def RoundTrips (overflowChecks : Bool) (outstanding : OutstandingPrompts) (p : PermissionPrompt) :
    Prop :=
  ∃ buttons, buildPermissionKeyboard overflowChecks p.requestId p.options = some buttons ∧
    ∀ (j : Nat) (opt : PermissionOption), p.options[j]? = some opt →
      ∃ button response, buttons[j]? = some button ∧ button.callbackData.utf8ByteSize ≤ 64 ∧
        parseCallbackData button.callbackData = some response ∧
        outstanding.table.get? response.requestId = some p ∧
        ∀ (k : Nat) (opt' : PermissionOption), p.options[k]? = some opt' →
          (opt'.optionId = response.optionId ↔ k = j)

/-- An option whose button data is not cut and has no second colon that could be taken for
    the separator. -/
structure Fits (requestId optionId : String) : Prop where
  short : requestId.utf8ByteSize + 1 + optionId.utf8ByteSize ≤ 64
  plain : ':' ∉ optionId.toList

theorem utf8ByteSize_joined (requestId optionId : String) :
    (requestId ++ ":" ++ optionId).utf8ByteSize =
      requestId.utf8ByteSize + 1 + optionId.utf8ByteSize := by
  rw [String.utf8ByteSize_append, String.utf8ByteSize_append]
  rfl

theorem Fits.callbackData_eq {requestId optionId : String} (h : Fits requestId optionId)
    (overflowChecks : Bool) :
    callbackData overflowChecks requestId optionId = some (requestId ++ ":" ++ optionId) := by
  rw [callbackData, utf8ByteSize_joined, if_neg (Nat.not_lt.mpr h.short)]

/-- Data that is too long loses the end of the request id. -/
theorem callbackData_of_long {requestId optionId : String}
    (h : 64 < requestId.utf8ByteSize + 1 + optionId.utf8ByteSize) (overflowChecks : Bool) :
    callbackData overflowChecks requestId optionId =
      (maxReqLen overflowChecks optionId.utf8ByteSize).map fun n =>
        String.ofList (requestId.toList.take n) ++ ":" ++ optionId := by
  rw [callbackData, utf8ByteSize_joined, if_pos h]

theorem buildPermissionKeyboard_of_fits {requestId : String} {options : List PermissionOption}
    (h : ∀ opt ∈ options, Fits requestId opt.optionId) (overflowChecks : Bool) :
    buildPermissionKeyboard overflowChecks requestId options =
      some (options.map fun opt => ⟨opt.label, requestId ++ ":" ++ opt.optionId⟩) := by
  induction options with
  | nil => rfl
  | cons opt options ih =>
      have hfirst := (h opt (List.mem_cons_self ..)).callbackData_eq overflowChecks
      have hrest := ih fun other hother => h other (List.mem_cons_of_mem opt hother)
      rw [buildPermissionKeyboard] at hrest ⊢
      rw [List.mapM_cons, hfirst, hrest]
      rfl

/-- **The keyboard of an outstanding prompt works** exactly when no two of its options have
    the same id and each of them fits. -/
theorem roundTrips_iff (overflowChecks : Bool) {outstanding : OutstandingPrompts}
    {p : PermissionPrompt} (h : outstanding.table.get? p.requestId = some p) :
    RoundTrips overflowChecks outstanding p ↔
      (p.options.map PermissionOption.optionId).Nodup ∧
        ∀ opt ∈ p.options, Fits p.requestId opt.optionId := by
  constructor
  · rintro ⟨buttons, _, hbuttons⟩
    constructor
    · rw [List.nodup_iff_pairwise_ne, List.pairwise_iff_getElem]
      intro i j hi hj hlt heq
      rw [List.length_map] at hi hj
      rw [List.getElem_map, List.getElem_map] at heq
      have hopt := List.getElem?_eq_getElem hi
      have hopt' := List.getElem?_eq_getElem hj
      obtain ⟨_, response, _, _, _, _, hunique⟩ := hbuttons i p.options[i] hopt
      have hsame : p.options[i].optionId = response.optionId := (hunique i _ hopt).mpr rfl
      have hij : j = i := (hunique j p.options[j] hopt').mp (heq ▸ hsame)
      omega
    · intro opt hmem
      obtain ⟨j, hj, hopt⟩ := List.mem_iff_getElem.mp hmem
      obtain ⟨button, response, _, hshort, hparse, hrequest, hunique⟩ :=
        hbuttons j opt (by rw [← hopt]; exact List.getElem?_eq_getElem hj)
      have hid : response.requestId = p.requestId := (outstanding.keyed _ _ hrequest).symm
      have hoption : opt.optionId = response.optionId :=
        (hunique j opt (by rw [← hopt]; exact List.getElem?_eq_getElem hj)).mpr rfl
      obtain ⟨hdata, hplain⟩ := parseCallbackData_eq_some_iff.mp hparse
      rw [hdata, hid, ← hoption, String.utf8ByteSize_append, String.utf8ByteSize_append] at hshort
      rw [← hoption] at hplain
      exact ⟨hshort, hplain⟩
  · rintro ⟨hnodup, hfits⟩
    refine ⟨_, buildPermissionKeyboard_of_fits hfits overflowChecks, ?_⟩
    intro j opt hopt
    have hfit := hfits opt (List.mem_of_getElem? hopt)
    refine ⟨⟨opt.label, p.requestId ++ ":" ++ opt.optionId⟩, ⟨p.requestId, opt.optionId⟩,
      by rw [List.getElem?_map, hopt]; rfl, ?_,
      parseCallbackData_eq_some_iff.mpr ⟨rfl, hfit.plain⟩, h, ?_⟩
    · change (p.requestId ++ ":" ++ opt.optionId).utf8ByteSize ≤ 64
      rw [String.utf8ByteSize_append, String.utf8ByteSize_append]
      exact hfit.short
    · intro k opt' hopt'
      constructor
      · intro heq
        have hk : (p.options.map PermissionOption.optionId)[k]? = some opt'.optionId := by
          rw [List.getElem?_map, hopt']
          rfl
        have hj : (p.options.map PermissionOption.optionId)[j]? = some opt.optionId := by
          rw [List.getElem?_map, hopt]
          rfl
        have heq' : opt'.optionId = opt.optionId := heq
        rw [heq', ← hj] at hk
        have hlt : k < (p.options.map PermissionOption.optionId).length := by
          rw [List.length_map]
          exact (List.getElem?_eq_some_iff.mp hopt').1
        exact (List.getElem?_inj hlt hnodup).mp hk
      · rintro rfl
        rw [hopt] at hopt'
        cases hopt'
        rfl

/-! ### One prompt -/

def promptOf (requestId : String) (optionIds : List String) : PermissionPrompt where
  requestId := requestId
  options := optionIds.map fun optionId => ⟨optionId, optionId⟩

def onlyPrompt (p : PermissionPrompt) : OutstandingPrompts where
  table := KeyedMap.set ∅ p.requestId p
  keyed := by
    intro id p' h
    rw [KeyedMap.get?_set] at h
    split at h
    · rename_i hid
      cases h
      exact hid.symm
    · cases h

theorem get?_onlyPrompt (p : PermissionPrompt) : (onlyPrompt p).table.get? p.requestId = some p := by
  rw [onlyPrompt, KeyedMap.get?_set, if_pos rfl]

theorem utf8ByteSize_replicate (c : Char) (n : Nat) :
    (String.ofList (List.replicate n c)).utf8ByteSize = n * c.utf8Size := by
  induction n with
  | zero =>
      rw [Nat.zero_mul]
      rfl
  | succ n ih =>
      rw [List.replicate_succ', String.ofList_append, String.utf8ByteSize_append, ih,
        ← String.singleton_eq_ofList, String.utf8ByteSize_singleton, Nat.succ_mul]

/-- An option id with a colon, a request id that is cut off, a request id of two-byte
    characters that is cut too late, and an option id that leaves no room. -/
theorem keyboards_fail :
    ¬RoundTrips true (onlyPrompt (promptOf "req" ["allow:once"])) (promptOf "req" ["allow:once"]) ∧
      callbackData true (String.ofList (List.replicate 100 'a')) "ok" =
        some (String.ofList (List.replicate 61 'a') ++ ":ok") ∧
      (callbackData true (String.ofList (List.replicate 100 'é')) "ok").map String.utf8ByteSize =
        some 125 ∧
      callbackData true "req" (String.ofList (List.replicate 64 'a')) = none := by
  have hok : "ok".utf8ByteSize = 2 := by decide
  refine ⟨?_, ?_, ?_, ?_⟩
  · intro h
    obtain ⟨buttons, hbuttons, hall⟩ := h
    obtain ⟨button, response, hbutton, _, hparse, _, hunique⟩ := hall 0 ⟨"allow:once", "allow:once"⟩ rfl
    have hbuilt : buildPermissionKeyboard true "req" [⟨"allow:once", "allow:once"⟩] =
        some [⟨"allow:once", "req:allow:once"⟩] := by decide
    have heq := Option.some.inj (hbuttons.symm.trans hbuilt)
    rw [heq] at hbutton
    cases hbutton
    have hsplit : parseCallbackData "req:allow:once" = some ⟨"req:allow", "once"⟩ := by decide
    rw [hsplit] at hparse
    cases hparse
    have hid := (hunique 0 ⟨"allow:once", "allow:once"⟩ rfl).mpr rfl
    exact absurd hid (by decide)
  · rw [callbackData_of_long (by rw [utf8ByteSize_replicate, hok]; decide), hok]
    show some (String.ofList ((String.ofList (List.replicate 100 'a')).toList.take 61) ++ ":" ++
      "ok") = _
    rw [String.toList_ofList, List.take_replicate, String.append_assoc]
    rfl
  · rw [callbackData_of_long (by rw [utf8ByteSize_replicate, hok]; decide), hok]
    show some (String.ofList ((String.ofList (List.replicate 100 'é')).toList.take 61) ++ ":" ++
      "ok").utf8ByteSize = _
    rw [utf8ByteSize_joined, String.toList_ofList, List.take_replicate, utf8ByteSize_replicate, hok]
    rfl
  · rw [callbackData_of_long (by rw [utf8ByteSize_replicate]; decide), utf8ByteSize_replicate]
    rfl

/-- The prompt that agents send. -/
theorem roundTrips_iff_allow :
    (onlyPrompt (promptOf "req:1" ["allow_once", "reject"])).table.get? "req:1" =
        some (promptOf "req:1" ["allow_once", "reject"]) ∧
      RoundTrips true (onlyPrompt (promptOf "req:1" ["allow_once", "reject"]))
        (promptOf "req:1" ["allow_once", "reject"]) := by
  refine ⟨get?_onlyPrompt _, (roundTrips_iff true (get?_onlyPrompt _)).mpr ⟨by decide, ?_⟩⟩
  intro opt hmem
  rcases List.mem_cons.mp hmem with rfl | hmem
  · exact ⟨by decide, by decide⟩
  · rw [List.mem_singleton.mp hmem]
    exact ⟨by decide, by decide⟩

end Anyclaw
