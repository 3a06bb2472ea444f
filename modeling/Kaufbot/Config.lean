import Kaufbot.Library.Strtok

/-!
The whitelist as `config_load` reads it from the environment.
-/

namespace Kaufbot

open CString

def maxAllowedUsers : Nat := 32

/-- `require_env`: a variable that is not set or empty is missing. -/
def requireEnv (value : Option CString) : Option CString :=
  value.filter fun v => !v.bytes.isEmpty

/-- The loop over the tokens, with the slots of `allowed_users` that are left. -/
def parseUserIdsTokens : Nat → CString → Option (List Int)
  | 0, _ => some []
  | room + 1, buf =>
      match strtokR 44 buf with
      | none => some []
      | some (token, rest) =>
          let token := token.skip 32
          let (id, after) := strtoll token
          if after = token.bytes then none
          else (parseUserIdsTokens room rest).map (id :: ·)

/-- The ids, or nothing where the source returns -1. -/
def parseUserIds (raw : CString) : Option (List Int) :=
  parseUserIdsTokens maxAllowedUsers (snprintf 1024 raw)

/-- The part of `config_load` that fills `allowed_users`; no ids are an error too. -/
def configLoadUsers (allowedUserIds : Option CString) : Option (List Int) :=
  match requireEnv allowedUserIds with
  | none => none
  | some usersRaw =>
      match parseUserIds usersRaw with
      | none => none
      | some ids => if ids.isEmpty then none else some ids

example : configLoadUsers (some (lit "7, -12,,9")) = some [7, -12, 9] := by decide +kernel

end Kaufbot
