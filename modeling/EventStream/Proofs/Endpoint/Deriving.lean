import EventStream.Proofs.Endpoint.Decoding
import EventStream.Proofs.Url.Splitting
import Mathlib.Data.List.DropRight

/-
# WebSocket endpoints beside the HTTP API

The base of the WebSocket endpoints is the URL of the HTTP API with another scheme, without the
slashes at the end of its path, without one last part `/api`, and without a query or a fragment
(`deriveWebSocket_text`). The paths of the watches begin with that part, so below an API whose path
ends with it a watch stands where the API stands.
-/

namespace EventStream.Endpoint

/-! ## Slashes at the end -/

theorem trimSlashes_eq (t : Text) : trimSlashes t = t.rdropWhile (· = slash) := rfl

theorem trimSlashes_of_getLast? {t : Text} (trimmed : t.getLast? ≠ some slash) :
    trimSlashes t = t := by
  rw [trimSlashes_eq, List.rdropWhile_eq_self_iff]
  intro some last
  rw [List.getLast?_eq_some_getLast some] at trimmed
  exact trimmed (congrArg Option.some (of_decide_eq_true last))

theorem trimSlashes_append_replicate (t : Text) (n : Nat) :
    trimSlashes (t ++ List.replicate n slash) = trimSlashes t := by
  induction n with
  | zero => simp
  | succ n ih =>
      rw [List.replicate_succ', ← List.append_assoc, trimSlashes_eq,
        List.rdropWhile_concat_pos _ _ _ (by simp), ← trimSlashes_eq, ih]

/-- A text is one that does not end with a slash, with slashes behind it. -/
theorem exists_replicate (t : Text) :
    ∃ q n, t = q ++ List.replicate n slash ∧ q.getLast? ≠ some slash := by
  induction t using List.reverseRecOn with
  | nil => exact ⟨[], 0, rfl, nofun⟩
  | append_singleton t c ih =>
      by_cases slashed : c = slash
      · obtain ⟨q, n, rfl, trimmed⟩ := ih
        exact ⟨q, n + 1, by rw [slashed, List.replicate_succ', List.append_assoc], trimmed⟩
      · exact ⟨t ++ [c], 0, by simp, by simpa using slashed⟩

/-! ## Beside the API -/

/-- A path, and what is left of it without the slashes at its end and then without one last part of
the API. -/
inductive Beside : Text → Text → Prop
  | api (path : Text) (n : Nat) : Beside (path ++ apiPart ++ List.replicate n slash) path
  | other {path : Text} (n : Nat) : path.getLast? ≠ some slash → ¬ apiPart <:+ path →
      Beside (path ++ List.replicate n slash) path

theorem besidePath_of_beside {path left : Text} (beside : Beside path left) :
    besidePath path = left := by
  cases beside with
  | api left n =>
      have trimmed : trimSlashes (left ++ apiPart) = left ++ apiPart :=
        trimSlashes_of_getLast? (by simp [apiPart, Text.ofString])
      have ends : Text.endsWith (left ++ apiPart) apiPart = true := by simp [Text.endsWith]
      rw [besidePath, trimSlashes_append_replicate, trimmed]
      simp [ends]
  | other n trimmed whole =>
      have ends : Text.endsWith left apiPart = false :=
        Bool.eq_false_iff.mpr (mt List.isSuffixOf_iff_suffix.mp whole)
      rw [besidePath, trimSlashes_append_replicate, trimSlashes_of_getLast? trimmed]
      simp [ends]

theorem beside_besidePath (path : Text) : Beside path (besidePath path) := by
  obtain ⟨left, beside⟩ : ∃ left, Beside path left := by
    obtain ⟨q, n, rfl, trimmed⟩ := exists_replicate path
    by_cases below : apiPart <:+ q
    · obtain ⟨left, rfl⟩ := below
      exact ⟨left, .api left n⟩
    · exact ⟨q, .other n trimmed below⟩
  rwa [besidePath_of_beside beside]

/-- What is left of a path stands at its beginning. -/
theorem Beside.exists_append {path left : Text} (beside : Beside path left) :
    ∃ rest, path = left ++ rest := by
  cases beside with
  | api left n => exact ⟨apiPart ++ List.replicate n slash, by simp⟩
  | other n => exact ⟨List.replicate n slash, rfl⟩

/-! ## Derived URLs -/

/-- The scheme of the WebSocket URL beside a URL of the web. -/
def webSocketScheme (u : Url.Web) : Text := if u.secure then "wss" else "ws"

theorem webSocketScheme?_eq (u : Url.Web) :
    webSocketScheme? u.scheme = some (webSocketScheme u) := by
  unfold webSocketScheme Url.Web.scheme
  cases u.secure <;> rfl

theorem deriveWebSocket_text (u : Url.Web) : deriveWebSocket u.text =
    .ok (webSocketScheme u ++ Text.ofString "://" ++ u.authority ++ besidePath u.path) := by
  obtain ⟨parts, splits, scheme, authority, path⟩ := u.split_text
  have rooted : (besidePath u.path).isEmpty = true ∨
      (besidePath u.path).head? = some (.scalar '/') := by
    obtain ⟨rest, whole⟩ := (beside_besidePath u.path).exists_append
    generalize besidePath u.path = left at whole ⊢
    cases left with
    | nil => exact .inl rfl
    | cons c t => exact .inr (congrArg some (u.path_rooted c (whole ▸ rfl)))
  rw [deriveWebSocket, splits]
  simp only [scheme, authority, path, webSocketScheme?_eq, Url.assemble]
  rw [if_pos (by simpa using rooted)]
  simp [Text.concat]

theorem trimSlashes_append_of_ne_nil {t : Text} (filled : t ≠ [])
    (trimmed : t.getLast? ≠ some slash) (front : Text) : trimSlashes (front ++ t) = front ++ t := by
  refine trimSlashes_of_getLast? ?_
  rwa [List.getLast?_append_of_ne_nil front filled]

/-- An authority does not end with a slash, and it still does not with a path behind it that ends
with none. -/
theorem authority_append_trimmed (u : Url.Web) {start : Text}
    (trimmed : start.getLast? ≠ some slash) : (u.authority ++ start).getLast? ≠ some slash := by
  by_cases empty : start = []
  · intro last
    rw [empty, List.append_nil] at last
    exact (u.authority_plain slash (List.mem_of_getLast? last)).2 (by decide)
  · rwa [List.getLast?_append_of_ne_nil _ empty]

/-- Below an API whose path ends with its last part, a watch stands where the API stands. -/
theorem skillSync_below (u : Url.Web) {start : Text} (trimmed : start.getLast? ≠ some slash)
    (agent token : Value) (url : Text) :
    skillSync (webSocketScheme u ++ Text.ofString "://" ++ u.authority ++ start) agent token =
        .ok url ↔
      IsWatchUrl (webSocketScheme u ++ Text.ofString "://" ++ (u.authority ++ start ++ apiPart) ++
        Text.ofString "/skill-sync/watch") agent token url := by
  have base := trimSlashes_append_of_ne_nil
    (List.append_ne_nil_of_left_ne_nil u.authority_named start)
    (authority_append_trimmed u trimmed) (webSocketScheme u ++ Text.ofString "://")
  rw [← List.append_assoc] at base
  have path : Text.ofString "/api/skill-sync/watch" =
      apiPart ++ Text.ofString "/skill-sync/watch" := rfl
  rw [skillSync, watchUrl_eq_ok_iff, base, path]
  simp only [List.append_assoc]

/-- The WebSocket URL of an API stands beside it: it has the other scheme and the same authority,
and of the path what is left. If the path of the API ends with its last part, a watch has the URL of
the API with the other scheme, without the slashes at its end, and with its own path behind. -/
theorem deriveWebSocket_beside (u : Url.Web) :
    (∃ left, Beside u.path left ∧ deriveWebSocket u.text =
      .ok (webSocketScheme u ++ Text.ofString "://" ++ u.authority ++ left)) ∧
    ∀ (start : Text) (n : Nat), u.path = start ++ apiPart ++ List.replicate n slash →
      start.getLast? ≠ some slash → u.later = [] →
        ∃ api base, trimSlashes u.text = u.scheme ++ Text.ofString "://" ++ api ∧
          deriveWebSocket u.text = .ok base ∧
          ∀ agent token url, skillSync base agent token = .ok url ↔
            IsWatchUrl (webSocketScheme u ++ Text.ofString "://" ++ api ++
              Text.ofString "/skill-sync/watch") agent token url := by
  refine ⟨⟨_, beside_besidePath u.path, deriveWebSocket_text u⟩, ?_⟩
  intro start n path trimmed last
  refine ⟨u.authority ++ start ++ apiPart, _, ?_, deriveWebSocket_text u, ?_⟩
  · have whole : u.text = u.scheme ++ Text.ofString "://" ++ (u.authority ++ start ++ apiPart) ++
        List.replicate n slash := by
      rw [Url.Web.text, path, last]
      simp
    rw [whole, trimSlashes_append_replicate, ← List.append_assoc]
    exact trimSlashes_append_of_ne_nil (by decide) (by decide) _
  · rw [path, besidePath_of_beside (.api start n)]
    exact skillSync_below u trimmed

/-- The API of a server on the same machine, with a slash at the end of its URL. -/
def localApi : Url.Web where
  secure := false
  authority := "localhost:8080"
  path := "/api/"
  later := []
  authority_named := by decide
  authority_plain := by decide
  path_plain := by decide
  path_rooted := by decide
  later_marked := by decide

theorem deriveWebSocket_beside_localApi : ∃ base, deriveWebSocket localApi.text = .ok base ∧
    skillSync base (.int 3) (.text "a b&c") =
      .ok "ws://localhost:8080/api/skill-sync/watch?agent_id=3&token=a+b%26c" := by
  obtain ⟨api, base, whole, derived, urls⟩ :=
    (deriveWebSocket_beside localApi).2 [] 1 (by decide) (by decide) rfl
  obtain rfl : Text.ofString "localhost:8080/api" = api :=
    List.append_cancel_left (Eq.trans (by decide) whole)
  exact ⟨base, derived, (urls _ _ _).mpr
    ⟨"3", "a b&c", "3", "a+b%26c", ⟨rfl, rfl⟩, ⟨rfl, rfl⟩, by decide +kernel⟩⟩

end EventStream.Endpoint
