import Kaufbot.Environment
import Mathlib.Data.List.DropRight
import Mathlib.Data.List.GetD

/-!
The models a user can choose from against the text of `GEMINI_MODELS`: its
entries between commas without the blanks around them, the empty ones dropped,
at most eight. The tokens the loop sees are the non-empty stretches; blank ones
are dropped after trimming and do not count.
-/

namespace Kaufbot

open CString

/-- An entry without the spaces and tabs at its ends. -/
def trimmedEntry (entry : List UInt8) : List UInt8 :=
  (entry.dropWhile isTrimmed).rdropWhile isTrimmed

/-- The models a list names. -/
def modelNames (csv : List UInt8) : List (List UInt8) :=
  ((((csv.splitOn 44).map trimmedEntry).filter (· ≠ [])).take 8).map (List.take 127)

section Trimming
variable (tok : CString)

theorem trimTrailing_bytes (len : Nat) (h : len ≤ tok.bytes.length) :
    (trimTrailing tok len).bytes = (tok.bytes.take len).rdropWhile isTrimmed := by
  induction len with
  | zero => simp [trimTrailing]
  | succ len ih =>
      have last : tok.bytes.take (len + 1) = tok.bytes.take len ++ [tok.bytes.getD len 0] := by
        rw [List.take_succ_eq_append_getElem h, ← List.getD_eq_getElem _ 0 h]
      rw [trimTrailing, last, List.rdropWhile_concat]
      split
      · exact ih (Nat.le_of_succ_le h)
      · rw [bytes_take, last]

theorem trimToken_bytes : (trimToken tok).bytes = trimmedEntry tok.bytes := by
  have leading (tok : CString) : (trimTrailing tok tok.length).bytes =
      tok.bytes.rdropWhile isTrimmed := by
    have all : tok.bytes.take tok.length = tok.bytes := List.take_of_length_le (Nat.le_refl _)
    rw [trimTrailing_bytes tok tok.length (Nat.le_refl _), all]
  exact leading _

end Trimming

/-- What the loop keeps of a text, with `room` slots left. -/
theorem modelTokens_bytes (room : Nat) (buf : CString) :
    (modelTokens room buf).map CString.bytes =
      ((((pieces 44 buf.bytes).map trimmedEntry).filter (· ≠ [])).take room).map
        (List.take 127) := by
  induction room, buf using modelTokens.induct with
  | case1 room buf h =>
      rw [modelTokens, h]
      simp [strtokR_none h]
  | case2 buf tok rest h =>
      rw [modelTokens, h]
      simp
  | case3 buf tok rest h room tok' nonempty ih =>
      have kept : trimmedEntry tok.bytes ≠ [] := by
        rw [← trimToken_bytes]
        exact List.length_pos_iff.mp nonempty
      rw [modelTokens, h]
      simp only [tok', if_pos nonempty, strtokR_some h]
      rw [List.map_cons, List.map_cons, List.filter_cons_of_pos (by simpa using kept),
        List.take_succ_cons, List.map_cons, ← ih, bytes_snprintf, trimToken_bytes]
      rfl
  | case4 buf tok rest h room tok' empty ih =>
      have dropped : trimmedEntry tok.bytes = [] := by
        rw [← trimToken_bytes]
        exact List.length_eq_zero_iff.mp (Nat.eq_zero_of_not_pos empty)
      rw [modelTokens, h]
      simp only [tok', if_neg empty, strtokR_some h]
      rw [ih, List.map_cons, List.filter_cons_of_neg (by simp [dropped])]

/-- A stretch without a character is no name before or after trimming. -/
theorem trimmed_pieces (csv : List UInt8) :
    ((pieces 44 csv).map trimmedEntry).filter (· ≠ []) =
      ((csv.splitOn 44).map trimmedEntry).filter (· ≠ []) := by
  rw [pieces]
  induction csv.splitOn 44 with
  | nil => rfl
  | cons entry entries ih =>
      by_cases empty : entry = []
      · have blank : trimmedEntry [] = [] := rfl
        simpa [empty, blank] using ih
      · rw [List.filter_cons_of_pos (by simpa using empty), List.map_cons, List.map_cons,
          List.filter_cons, List.filter_cons, ih]

theorem configLoadModels_bytes (csv geminiModel : CString) (short : csv.length ≤ 511) :
    (configLoadModels csv geminiModel).map CString.bytes =
      if modelNames csv.bytes = [] then [geminiModel.bytes.take 127] else modelNames csv.bytes := by
  have whole : snprintf geminiModelsBuf csv = csv :=
    snprintf_of_length_lt (Nat.lt_succ_of_le short)
  have names : (modelTokens maxGeminiModels csv).map CString.bytes = modelNames csv.bytes := by
    rw [modelTokens_bytes, trimmed_pieces]
    rfl
  simp only [configLoadModels, whole, ← names, List.map_eq_nil_iff, List.length_eq_zero_iff]
  split <;> rfl

/-- The models of a configuration that was loaded. -/
theorem configLoad_models {havePostgres : Bool} {getenv : CString → Option CString}
    {cfg : LoadedConfig} {csv : CString} (loaded : configLoad havePostgres getenv = some cfg)
    (set : getenv (lit "GEMINI_MODELS") = some csv) (nonempty : csv ≠ .empty)
    (short : csv.length ≤ 511) :
    cfg.geminiModels.map CString.bytes =
        (if modelNames csv.bytes = [] then [cfg.geminiModel.bytes] else modelNames csv.bytes) ∧
      1 ≤ cfg.geminiModels.length ∧ cfg.geminiModels.length ≤ 8 := by
  have used (default : String) : envOrDefault getenv "GEMINI_MODELS" default = csv := by
    have text : csv.bytes ≠ [] := fun h => nonempty (CString.ext h)
    have kept : requireEnv (some csv) = some csv := by simp [requireEnv, Option.filter, text]
    rw [envOrDefault, set, kept, Option.getD_some]
  simp only [configLoad, Option.bind_eq_bind, Option.bind_eq_some_iff, Option.some.injEq,
    used] at loaded
  obtain ⟨token, -, geminiKey, -, users, -, storage, -, database, -, rfl⟩ := loaded
  have bytes := configLoadModels_bytes csv
    (snprintf maxModelLen (envOrDefault getenv "GEMINI_MODEL" "gemini-2.5-flash")) short
  have again (s : CString) : (snprintf maxModelLen s).bytes.take 127 = (snprintf maxModelLen s).bytes :=
    congrArg CString.bytes (snprintf_snprintf maxModelLen s)
  rw [again] at bytes
  refine ⟨bytes, ?_⟩
  have count := congrArg List.length bytes
  rw [List.length_map] at count
  change 1 ≤ (configLoadModels csv _).length ∧ (configLoadModels csv _).length ≤ 8
  rw [count]
  split
  · simp
  · next named =>
      refine ⟨List.length_pos_iff.mpr named, ?_⟩
      rw [modelNames, List.length_map, List.length_take]
      exact Nat.min_le_left _ _

/-- Three variables are what a start needs; here every variable but the list is 7. -/
def sevens : CString → Option CString := fun key =>
  some (if key = lit "GEMINI_MODELS" then lit " pro ,,	,flash" else lit "7")

theorem configLoad_models_sevens :
    ∃ cfg, configLoad false sevens = some cfg ∧
      cfg.geminiModels.map CString.bytes = [(lit "pro").bytes, (lit "flash").bytes] := by
  obtain ⟨cfg, loaded⟩ := Option.isSome_iff_exists.mp
    (by decide +kernel : (configLoad false sevens).isSome = true)
  have set : sevens (lit "GEMINI_MODELS") = some (lit " pro ,,\t,flash") :=
    congrArg some (if_pos rfl)
  have models := (configLoad_models loaded set (by decide +kernel) (by decide +kernel)).1
  have names : modelNames (lit " pro ,,\t,flash").bytes =
      [(lit "pro").bytes, (lit "flash").bytes] := by decide +kernel
  rw [names, if_neg (by simp)] at models
  exact ⟨cfg, loaded, models⟩

end Kaufbot
