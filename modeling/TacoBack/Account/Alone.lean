import TacoBack.Account.Effects
import TacoBack.Account.System

/-!
# Calls that run alone

A call that nobody disturbs does in steps what its function does at once.
-/

namespace TacoBack.AccountSystem

open AccountService Transition

variable {env : AccountEnv} {s : State} {t : AccountStore}

/-- A `registe` that has read the pool goes on to its end, whatever else waits. -/
theorem registe_finishes {id questionId hash : String} {body tid : Json} {post : List Task}
    {inserted : AccountStore} (here : s.tasks = .registe tid hash body .find :: post)
    (new : registeFind env body s.store = .ok ()) (insert : registeInsert env id tid hash body s.store = .ok inserted)
    (incrby : registeIncrby (registeSave questionId tid body inserted) = .ok t) :
    ∃ history, Transition.Run (Step env) s history ⟨t, post⟩ ∧
      labels history = [.internal, .internal, .internal, .returned tid] := by
  have start : Transition.Run (Step env) s [] s := .nil
  have found := (start.snoc (.first here (.find new))).snoc (.first rfl (.insert insert))
  exact ⟨_, (found.snoc (.first rfl (.save questionId))).snoc (.first rfl (.incrby incrby)), rfl⟩

theorem registe_alone {id questionId : String} {body tid : Json} (idle : s.tasks = [])
    (done : registe env id questionId body s.store = (.ok tid, t)) :
    ∃ history, Transition.Run (Step env) s history ⟨t, []⟩ ∧
      labels history = [.registe body, .internal, .internal, .internal, .returned tid] ∧
      ∀ x ∈ history, ∀ other, x.2 = .registe other → x.1.tasks = [] := by
  obtain ⟨store, tasks⟩ := s
  obtain rfl : tasks = [] := idle
  unfold registe at done
  split at done
  · cases done
  rename_i next hash read
  split at done
  · cases done
  rename_i new
  split at done
  · cases done
  rename_i inserted insert
  dsimp only at done
  split at done
  · cases done
  rename_i counted incrby
  obtain ⟨same, rfl⟩ := Prod.mk.inj done
  obtain rfl := Except.ok.inj same
  have start : Transition.Run (Step env) ⟨store, []⟩ [] ⟨store, []⟩ := .nil
  obtain ⟨history, run, whole⟩ := registe_finishes (s := ⟨store, [.registe next hash body .find]⟩) rfl new insert
    incrby
  refine ⟨_, (start.snoc (.registe read)).append run, ?_, fun x member other same => ?_⟩
  · rw [labels_append, whole]
    rfl
  · rcases List.mem_append.mp member with first | later
    · obtain rfl := List.mem_singleton.mp first
      rfl
    · have listed : x.2 ∈ labels history := List.mem_map_of_mem later
      rw [whole, same] at listed
      simp at listed

theorem token_alone {kind : Kind} {tid : Option Json} {origin : Origin} {renew : Bool} {token : String}
    (here : s.tasks = [.sign kind tid origin renew])
    (signed : env.jwt.sign (kind.payload tid) (kind.expire env).expire s.store.now = some token) :
    ∃ history, Transition.Run (Step env) s history
        { store := storeToken (kind.key tid) token (kind.expire env).ms s.store,
          tasks := if renew then [.sign (.refresh token) tid origin false] else [] } ∧
      labels history = [.issued ⟨kind, tid, origin, token⟩, .internal, .internal] := by
  obtain ⟨store, tasks⟩ := s
  obtain rfl : tasks = _ := here
  have start : Transition.Run (Step env) ⟨store, [.sign kind tid origin renew]⟩ [] _ := .nil
  have stored := ((start.snoc (.only rfl (.sign signed))).snoc (.only rfl .set)).snoc (.only rfl .setnx)
  exact ⟨_, stored, rfl⟩

theorem login_alone {tid password : Option Json} {access_token refresh_token : String} (idle : s.tasks = [])
    (done : login env tid password s.store = (.ok ⟨access_token, .ok refresh_token⟩, t)) :
    ∃ history, Transition.Run (Step env) s history ⟨t, []⟩ ∧
      labels history = [.internal, .issued ⟨.access, tid, .login tid, access_token⟩, .internal, .internal,
        .issued ⟨.refresh access_token, tid, .login tid, refresh_token⟩, .internal, .internal] := by
  obtain ⟨store, tasks⟩ := s
  obtain rfl : tasks = [] := idle
  unfold login at done
  split at done
  · cases done
  rename_i hash hashed
  split at done
  · cases done
  rename_i found
  unfold createToken createAccessToken at done
  cases access : env.jwt.sign tid env.access_token.expire store.now with
  | none => simp [access] at done
  | some token =>
    simp only [access, createRefreshToken] at done
    cases refresh : env.jwt.sign (refreshPayload token) env.refresh_token.expire store.now with
    | none => simp [storeToken, refresh] at done
    | some renewed =>
      simp only [storeToken, refresh, Prod.mk.injEq, Except.ok.injEq, Tokens.mk.injEq] at done
      obtain ⟨⟨rfl, rfl⟩, rfl⟩ := done
      have start : Transition.Run (Step env) ⟨store, []⟩ [] ⟨store, []⟩ := .nil
      obtain ⟨first, made, firstLabels⟩ := @token_alone env ⟨store, [.sign .access tid (.login tid) true]⟩ .access tid
        (.login tid) true token rfl access
      obtain ⟨second, renewing, secondLabels⟩ := @token_alone env
        ⟨storeToken (TOKEN_NAMESPACE tid) token env.access_token.ms store,
          [.sign (.refresh token) tid (.login tid) false]⟩
        (.refresh token) tid (.login tid) false renewed rfl refresh
      refine ⟨_, ((start.snoc (.login hashed found)).append made).append renewing, ?_⟩
      rw [labels_append, labels_append, firstLabels, secondLabels]
      rfl

theorem forgetPassword_alone {tid answer new_pwd : Option Json} (idle : s.tasks = [])
    (done : forgetPassword env tid answer new_pwd s.store = (.ok true, t)) :
    ∃ history found, Transition.Run (Step env) s history ⟨t, []⟩ ∧
      labels history = [.internal, .replaced (found.bind Users.tid), .internal] ∧
      ∃ updated, forgetUpdate env tid new_pwd s.store = .ok (found, updated) := by
  obtain ⟨store, tasks⟩ := s
  obtain rfl : tasks = [] := idle
  unfold forgetPassword at done
  split at done
  · cases done
  rename_i accepted
  split at done
  · cases done
  rename_i found updated replaced
  obtain ⟨-, rfl⟩ := Prod.mk.inj done
  have start : Transition.Run (Step env) ⟨store, []⟩ [] ⟨store, []⟩ := .nil
  have replacing := (start.snoc (.forgetPassword accepted)).snoc (.only rfl (.forgetPassword replaced))
  exact ⟨_, found, replacing.snoc (.only rfl .del), rfl, updated, replaced⟩

end TacoBack.AccountSystem
