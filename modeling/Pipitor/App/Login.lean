import Pipitor.App.ListSync
import Pipitor.App.Reload

/-!
# `pipitor twitter-login`

`bin/pipitor/twitter_login.rs`: the tokens of the users that the manifest names are verified, all at once, and the
users without a valid one are asked for, until each of them has logged in. `login_authorizes` says what the other
programs then find in the database.
-/

namespace Pipitor.App

open Twitter Relational

namespace Login

/-- The response to `account::VerifyCredentials`. -/
inductive Answer
  | verified
  | unauthorized
  | failed
deriving DecidableEq, Repr

def accepts (_ : Int64) : Answer → Bool
  | .failed => false
  | _ => true

/-- `twitter_client::auth::AccessToken`. -/
structure AccessToken where
  userId : Int64
  credentials : Credentials

/-- `From<&AccessToken> for NewTwitterTokens`. -/
def AccessToken.row (token : AccessToken) : TwitterToken :=
  ⟨token.userId, token.credentials.identifier, token.credentials.secret⟩

/-- The errors, those with a context by it. -/
inductive Error
  | message (message : String)
  | pool
  | database
  | input
deriving DecidableEq, Repr

/-- One turn of the loop: it fails, or somebody has logged in. -/
inductive Attempt
  | requestTokenError
  | inputError
  | accessTokenError
  | granted (token : AccessToken) (saved : Except Error Unit)

inductive Phase
  | verifying (requests : Gather.State Int64 Answer)
  | asking (unauthedUsers : Finset Int64)
  | ended (result : Except Error Unit)

structure State where
  db : Database
  phase : Phase

inductive Event
  | verify (e : Gather.Event Int64 Answer)
  | attempt (a : Attempt)

/-- The users whose tokens are verified. -/
def known (users : List Int64) (db : Database) : Finset Int64 :=
  (users.filter fun user => db.twitterTokens.hasKey user).toFinset

/-- The users without a token, or with one that is not valid any more. -/
def unauthed (users : List Int64) (db : Database) (served : List (Int64 × Answer)) : Finset Int64 :=
  (users.filter fun user => !db.twitterTokens.hasKey user || served.contains (user, .unauthorized)).toFinset

/-- Go on when all tokens are verified. -/
def settle (users : List Int64) (db : Database) (requests : Gather.State Int64 Answer) : Phase :=
  match requests.ended with
  | none => .verifying requests
  | some false => .ended (.error (.message "error while verifying Twitter credentials"))
  | some true =>
    if unauthed users db requests.served = ∅ then .ended (.ok ()) else .asking (unauthed users db requests.served)

/-- The tokens have been loaded, or could not be. -/
def start (manifest : Manifest) (db : Database) (load : Except Error Unit) : State :=
  match manifest.twitter, load with
  | none, _ => ⟨db, .ended (.error (.message "missing `twitter` in the manifest"))⟩
  | some _, .error e => ⟨db, .ended (.error e)⟩
  | some config, .ok () =>
    ⟨db, settle (usersOf manifest config) db (.start [known (usersOf manifest config) db])⟩

/-- Somebody has logged in. A user who is not asked for does not count. -/
def logIn (db : Database) (unauthedUsers : Finset Int64) (token : AccessToken) (saved : Except Error Unit) : State :=
  if token.userId ∈ unauthedUsers then
    match saved with
    | .error e => ⟨db, .ended (.error e)⟩
    | .ok () =>
      ⟨db.replaceToken token.row, if unauthedUsers.erase token.userId = ∅ then .ended (.ok ())
        else .asking (unauthedUsers.erase token.userId)⟩
  else ⟨db, .asking unauthedUsers⟩

def step (users : List Int64) (s : State) : Event → State
  | .verify e => match s.phase with
    | .verifying requests => { s with phase := settle users s.db (requests.step accepts e) }
    | _ => s
  | .attempt a => match s.phase with
    | .asking unauthedUsers => match a with
      | .requestTokenError =>
        { s with phase := .ended (.error (.message "error while getting OAuth request token from Twitter")) }
      | .inputError => { s with phase := .ended (.error .input) }
      | .accessTokenError =>
        { s with phase := .ended (.error (.message "error while getting OAuth access token from Twitter")) }
      | .granted token saved => logIn s.db unauthedUsers token saved
    | _ => s

/-! ### Who is authorized, and how -/

/-- Twitter accepts the token of the user. -/
def Verifies (user : Int64) (m : State × Event) : Prop :=
  m.2 = .verify (.serve user .verified) ∧ ∃ requests, m.1.phase = .verifying requests ∧ user ∈ requests.unserved

/-- The user logs in, and the token is saved. -/
def Grants (token : AccessToken) (m : State × Event) : Prop :=
  m.2 = .attempt (.granted token (.ok ())) ∧ ∃ users, m.1.phase = .asking users ∧ token.userId ∈ users

/-- The user has logged in during the run. -/
def LoggedIn (ms : List (State × Event)) (user : Int64) : Prop :=
  ∃ m ∈ ms, ∃ token : AccessToken, token.userId = user ∧ Grants token m

/-- The rows of the database where it comes from `before`. -/
structure Frame (before : Database) (ms : List (State × Event)) (db : Database) : Prop where
  tweets : db.tweets = before.tweets
  lastTweet : db.lastTweet = before.lastTweet
  ongoing : ∀ r, r ∈ db.ongoingRetweets ↔ r ∈ before.ongoingRetweets ∧ ¬LoggedIn ms r.user
  untouched : ∀ user, ¬LoggedIn ms user → db.twitterTokens.find? user = before.twitterTokens.find? user
  granted : ∀ user, LoggedIn ms user →
    ∃ m ∈ ms, ∃ token : AccessToken, token.userId = user ∧ Grants token m ∧ db.twitterTokens.find? user = some token.row

/-- The token of the user is valid. -/
def Authorized (before : Database) (ms : List (State × Event)) (user : Int64) : Prop :=
  (before.twitterTokens.hasKey user = true ∧ ∃ m ∈ ms, Verifies user m) ∨ LoggedIn ms user

/-- What is known in each phase. -/
def Known (users : List Int64) (before : Database) (ms : List (State × Event)) (s : State) : Prop :=
  match s.phase with
  | .verifying requests => Gather.Inv accepts [known users before] requests ∧ s.db = before ∧
      (∀ user, (user, .verified) ∈ requests.served → ∃ m ∈ ms, Verifies user m)
  | .asking unauthedUsers => ∀ user ∈ users, user ∈ unauthedUsers ∨ Authorized before ms user
  | .ended (.ok ()) => ∀ user ∈ users, Authorized before ms user
  | .ended (.error _) => True

section Run

variable {users : List Int64} {before : Database} {s : State} {ms : List (State × Event)} {m : State × Event}
  {user : Int64}

theorem LoggedIn.append (h : LoggedIn ms user) (m : State × Event) : LoggedIn (ms ++ [m]) user := by
  obtain ⟨m', hm', hgrants⟩ := h
  exact ⟨m', List.mem_append_left _ hm', hgrants⟩

theorem Authorized.append (h : Authorized before ms user) (m : State × Event) : Authorized before (ms ++ [m]) user := by
  rcases h with ⟨hkey, m', hm', hverifies⟩ | hlogged
  · exact .inl ⟨hkey, m', List.mem_append_left _ hm', hverifies⟩
  · exact .inr (hlogged.append m)

theorem loggedIn_append_iff : LoggedIn (ms ++ [m]) user ↔
    LoggedIn ms user ∨ ∃ token : AccessToken, token.userId = user ∧ Grants token m := by
  constructor
  · rintro ⟨m', hm', hgrants⟩
    rcases List.mem_append.mp hm' with hm' | hm'
    · exact .inl ⟨m', hm', hgrants⟩
    · exact .inr (List.mem_singleton.mp hm' ▸ hgrants)
  · rintro (hlogged | hgrants)
    · exact hlogged.append m
    · exact ⟨m, List.mem_append_right _ (List.mem_singleton_self m), hgrants⟩

theorem Frame.append (h : Frame before ms s.db) (hnone : ∀ token, ¬Grants token m) :
    Frame before (ms ++ [m]) s.db := by
  have hiff : ∀ user, LoggedIn (ms ++ [m]) user ↔ LoggedIn ms user := by
    intro user
    rw [loggedIn_append_iff, or_iff_left]
    rintro ⟨token, -, hgrants⟩
    exact hnone token hgrants
  refine ⟨h.tweets, h.lastTweet, fun r => ?_, fun user hnot => ?_, fun user hlogged => ?_⟩
  · rw [hiff]
    exact h.ongoing r
  · exact h.untouched user fun hlogged => hnot ((hiff user).mpr hlogged)
  · obtain ⟨m', hm', hgranted⟩ := h.granted user ((hiff user).mp hlogged)
    exact ⟨m', List.mem_append_left _ hm', hgranted⟩

theorem Grants.eq {token token' : AccessToken} (h : Grants token m) (h' : Grants token' m) : token' = token := by
  have heq := h.1.symm.trans h'.1
  cases heq
  rfl

theorem Frame.granted_append {db : Database} (h : Frame before ms db) {token : AccessToken} (hgrants : Grants token m) :
    Frame before (ms ++ [m]) (db.replaceToken token.row) := by
  have hiff : ∀ user, LoggedIn (ms ++ [m]) user ↔ LoggedIn ms user ∨ token.userId = user := by
    intro user
    rw [loggedIn_append_iff]
    refine or_congr_right ⟨?_, fun heq => ⟨token, heq, hgrants⟩⟩
    rintro ⟨token', heq, hgrants'⟩
    rwa [hgrants.eq hgrants'] at heq
  have hfind : ∀ user, (db.replaceToken token.row).twitterTokens.find? user =
      if token.userId = user then some token.row else db.twitterTokens.find? user := fun _ => Table.find?_replace
  refine ⟨h.tweets, h.lastTweet, fun r => ?_, fun user hnot => ?_, fun user hlogged => ?_⟩
  · rw [hiff, not_or]
    unfold Database.replaceToken
    rw [Table.mem_filter, h.ongoing, decide_eq_true_eq, and_assoc]
    exact and_congr_right fun _ => and_congr_right fun _ => ne_comm
  · rw [hiff, not_or] at hnot
    rw [hfind, if_neg hnot.2]
    exact h.untouched user hnot.1
  · by_cases heq : token.userId = user
    · refine ⟨m, List.mem_append_right _ (List.mem_singleton_self m), token, heq, hgrants, ?_⟩
      rw [hfind, if_pos heq]
    · obtain ⟨m', hm', token', heq', hgrants', hfound⟩ :=
        h.granted user (((hiff user).mp hlogged).resolve_right heq)
      refine ⟨m', List.mem_append_left _ hm', token', heq', hgrants', ?_⟩
      rw [hfind, if_neg heq]
      exact hfound

/-- Every token that is known has been verified, or its user is asked for. -/
theorem known_settle {requests : Gather.State Int64 Answer} (hinv : Gather.Inv accepts [known users before] requests)
    (hserved : ∀ user, (user, .verified) ∈ requests.served → ∃ m ∈ ms, Verifies user m) :
    Known users before ms ⟨before, settle users before requests⟩ := by
  have hcases : requests.ended = some true → ∀ user ∈ users,
      user ∈ unauthed users before requests.served ∨ Authorized before ms user := by
    intro hended user huser
    by_cases hmem : user ∈ unauthed users before requests.served
    · exact .inl hmem
    · right
      unfold unauthed at hmem
      rw [List.mem_toFinset, List.mem_filter] at hmem
      have hnot := Bool.eq_false_iff.mpr fun htrue => hmem ⟨huser, htrue⟩
      rw [Bool.or_eq_false_iff, Bool.not_eq_false'] at hnot
      have hknown : user ∈ known users before := List.mem_toFinset.mpr (List.mem_filter.mpr ⟨huser, hnot.1⟩)
      obtain ⟨answer, hanswer, haccepts⟩ := hinv.accepted_of_succeeded hended _ (List.mem_singleton_self _) user hknown
      refine .inl ⟨hnot.1, hserved user ?_⟩
      cases answer with
      | verified => exact hanswer
      | unauthorized =>
        rw [List.contains_iff_mem.mpr hanswer] at hnot
        cases hnot.2
      | failed => cases haccepts
  unfold settle
  split
  · exact ⟨hinv, rfl, hserved⟩
  · trivial
  · rename_i hended
    split
    · rename_i hempty
      intro user huser
      refine (hcases hended user huser).resolve_left ?_
      rw [hempty]
      exact Finset.notMem_empty _
    · exact hcases hended

/-- What holds after any run. -/
structure Inv (users : List Int64) (before : Database) (s : State) (ms : List (State × Event)) : Prop where
  frame : Frame before ms s.db
  known : Known users before ms s

theorem Inv.fail (h : Inv users before s ms) (hnone : ∀ token, ¬Grants token m) (e : Error) :
    Inv users before ⟨s.db, .ended (.error e)⟩ (ms ++ [m]) := ⟨h.frame.append hnone, trivial⟩

theorem Inv.idle (h : Inv users before s ms) (hnone : ∀ token, ¬Grants token m) : Inv users before s (ms ++ [m]) := by
  refine ⟨h.frame.append hnone, ?_⟩
  have hknown := h.known
  unfold Known at hknown ⊢
  split
  · rename_i requests hphase
    simp only [hphase] at hknown
    refine ⟨hknown.1, hknown.2.1, fun user hserved => ?_⟩
    obtain ⟨m', hm', hverifies⟩ := hknown.2.2 user hserved
    exact ⟨m', List.mem_append_left _ hm', hverifies⟩
  · rename_i unauthedUsers hphase
    simp only [hphase] at hknown
    exact fun user huser => (hknown user huser).imp_right fun hauthorized => hauthorized.append m
  · rename_i hphase
    simp only [hphase] at hknown
    exact fun user huser => (hknown user huser).append m
  · trivial

theorem not_grants_of_verifying {requests : Gather.State Int64 Answer} (hphase : s.phase = .verifying requests)
    (e : Event) (token : AccessToken) : ¬Grants token (s, e) := by
  rintro ⟨-, users, hasking, -⟩
  rw [hphase] at hasking
  cases hasking

theorem Inv.verify (h : Inv users before s ms) {requests : Gather.State Int64 Answer}
    (hphase : s.phase = .verifying requests) (e : Gather.Event Int64 Answer) :
    Inv users before { s with phase := settle users s.db (requests.step accepts e) } (ms ++ [(s, .verify e)]) := by
  have hknown := h.known
  unfold Known at hknown
  simp only [hphase] at hknown
  obtain ⟨hinv, hdb, hserved⟩ := hknown
  refine ⟨h.frame.append (not_grants_of_verifying hphase _), ?_⟩
  rw [hdb]
  refine known_settle (hinv.step (List.pairwise_singleton _ _) e) fun user hmem => ?_
  rcases Gather.mem_served_step hmem with hold | ⟨rfl, hunserved⟩
  · obtain ⟨m, hm, hverifies⟩ := hserved user hold
    exact ⟨m, List.mem_append_left _ hm, hverifies⟩
  · exact ⟨_, List.mem_append_right _ (List.mem_singleton_self _), rfl, requests, hphase, hunserved⟩

theorem Inv.logIn (h : Inv users before s ms) {unauthedUsers : Finset Int64}
    (hphase : s.phase = .asking unauthedUsers) (token : AccessToken) (saved : Except Error Unit) :
    Inv users before (logIn s.db unauthedUsers token saved) (ms ++ [(s, .attempt (.granted token saved))]) := by
  have hknown := h.known
  unfold Known at hknown
  simp only [hphase] at hknown
  unfold Login.logIn
  split
  · rename_i hmem
    split
    · rename_i e
      refine h.fail ?_ e
      rintro token' ⟨heq, -⟩
      cases heq
    · have hgrants : Grants token (s, .attempt (.granted token (.ok ()))) := ⟨rfl, unauthedUsers, hphase, hmem⟩
      have hrest : ∀ user ∈ users, user ∈ unauthedUsers.erase token.userId ∨
          Authorized before (ms ++ [(s, .attempt (.granted token (.ok ())))]) user := by
        intro user huser
        by_cases heq : token.userId = user
        · exact .inr (.inr ⟨_, List.mem_append_right _ (List.mem_singleton_self _), token, heq, hgrants⟩)
        · rcases hknown user huser with hmem' | hauthorized
          · exact .inl (Finset.mem_erase.mpr ⟨Ne.symm heq, hmem'⟩)
          · exact .inr (hauthorized.append _)
      refine ⟨h.frame.granted_append hgrants, ?_⟩
      split
      · rename_i hempty
        rw [hempty] at hrest
        exact fun user huser => (hrest user huser).resolve_left (Finset.notMem_empty _)
      · exact hrest
  · rename_i hnot
    have hsame : (⟨s.db, .asking unauthedUsers⟩ : State) = s := by rw [← hphase]
    rw [hsame]
    refine h.idle ?_
    rintro token' ⟨heq, users', hphase', hmem⟩
    cases heq
    rw [hphase] at hphase'
    cases hphase'
    exact hnot hmem

theorem Inv.step (h : Inv users before s ms) (e : Event) : Inv users before (step users s e) (ms ++ [(s, e)]) := by
  cases e with
  | verify e =>
    dsimp only [Login.step]
    split
    · rename_i requests hphase
      exact h.verify hphase e
    · exact h.idle fun token hgrants => by cases hgrants.1
  | attempt a =>
    dsimp only [Login.step]
    split
    · rename_i unauthedUsers hphase
      split
      · exact h.fail (fun token hgrants => by cases hgrants.1) _
      · exact h.fail (fun token hgrants => by cases hgrants.1) _
      · exact h.fail (fun token hgrants => by cases hgrants.1) _
      · rename_i token saved
        exact h.logIn hphase token saved
    · rename_i hphase
      refine h.idle ?_
      rintro token ⟨-, users', hasking, -⟩
      exact hphase users' hasking

theorem inv_start {manifest : Manifest} {config : Twitter} (hconfig : manifest.twitter = some config)
    (before : Database) (load : Except Error Unit) :
    Inv (usersOf manifest config) before (start manifest before load) [] := by
  have hnobody : ∀ user, ¬LoggedIn [] user := by
    rintro user ⟨m, hm, -⟩
    cases hm
  have hframe : Frame before [] before := by
    refine ⟨rfl, rfl, fun r => ?_, fun _ _ => rfl, fun user hlogged => absurd hlogged (hnobody user)⟩
    exact (and_iff_left (hnobody r.user)).symm
  unfold start
  rw [hconfig]
  cases load with
  | error e => exact ⟨hframe, trivial⟩
  | ok u =>
    refine ⟨hframe, known_settle (Gather.inv_start (List.pairwise_singleton _ _)) fun user hmem => ?_⟩
    unfold Gather.State.start at hmem
    rw [Gather.served_launch] at hmem
    cases hmem

theorem inv_run {manifest : Manifest} {config : Twitter} (hconfig : manifest.twitter = some config)
    (before : Database) (load : Except Error Unit) (run : List Event) :
    Inv (usersOf manifest config) before
      (Runs.final (step (usersOf manifest config)) (start manifest before load) run)
      (Runs.moves (step (usersOf manifest config)) (start manifest before load) run) :=
  Runs.final_moves_induction (P := fun s ms => Inv (usersOf manifest config) before s ms) (fun _ _ e h => h.step e)
    (inv_start hconfig before load) run

end Run

/-! ### What the other programs find -/

/-- As many rows as users, if every user has one. -/
theorem length_eq_of_hasKey {t : Table TwitterToken.id} {users : List Int64} (hnodup : users.Nodup)
    (h : ∀ user ∈ users, t.hasKey user = true) : users.length = (t.rows.filter (·.id ∈ users)).length := by
  have hids : ((t.rows.filter (·.id ∈ users)).map (·.id)).Nodup :=
    (List.Sublist.map _ List.filter_sublist).nodup t.nodup
  have hmem : ∀ user, user ∈ (t.rows.filter (·.id ∈ users)).map (·.id) ↔ user ∈ users := by
    intro user
    constructor
    · intro hid
      obtain ⟨token, htoken, rfl⟩ := List.mem_map.mp hid
      exact of_decide_eq_true (List.mem_filter.mp htoken).2
    · intro huser
      obtain ⟨token, htoken, rfl⟩ := Table.hasKey_iff.mp (h user huser)
      exact List.mem_map_of_mem (List.mem_filter.mpr ⟨htoken, decide_eq_true huser⟩)
  have hperm := (List.perm_ext_iff_of_nodup hids hnodup).mpr hmem
  rw [← hperm.length_eq, List.length_map]

theorem find?_filter_of_mem {t : Table TwitterToken.id} {users : List Int64} {user : Int64} (huser : user ∈ users) :
    (t.rows.filter (·.id ∈ users)).find? (·.id = user) = t.find? user := by
  unfold Table.find?
  rw [List.find?_filter]
  congr 1
  funext token
  by_cases heq : token.id = user
  · simp [heq, huser]
  · simp [heq]

theorem twitterTokens_initLastTweet (db : Database) : db.initLastTweet.twitterTokens = db.twitterTokens := by
  unfold Database.initLastTweet
  split
  · rfl
  · rfl

theorem new_of_tokens {manifest : Manifest} {config : Twitter} (hconfig : manifest.twitter = some config)
    (hvalid : manifest.validate = .ok ()) {env : CoreEnv} (hinsert : env.insertLastTweet = .ok ())
    (hload : env.loadTokens = .ok ()) (pool : Pool)
    (htokens : ∀ user ∈ usersOf manifest config, env.db.twitterTokens.hasKey user = true) :
    ∃ core, (Core.new manifest env (.ok pool)).1 = .ok core ∧
      ∀ user ∈ usersOf manifest config, core.twitterTokens user = (env.db.twitterTokens.find? user).map credentials := by
  have hlen := length_eq_of_hasKey (List.nodup_dedup _) htokens
  have hall : (usersOf manifest config).filter (fun _ => (none : Option Credentials).isNone) = usersOf manifest config :=
    List.filter_true _
  unfold Core.new Core.loadTwitterTokens
  rw [hvalid, hinsert]
  dsimp only
  rw [hconfig]
  dsimp only
  rw [hall, hload, twitterTokens_initLastTweet]
  refine ⟨_, if_pos hlen, fun user huser => ?_⟩
  dsimp only
  rw [find?_filter_of_mem huser]
  cases env.db.twitterTokens.find? user with
  | none => rfl
  | some token => rfl

/-- **After a login everybody is authorized.** If the program succeeds, every user of the manifest has a token that
Twitter accepted during the run or that was granted in it; `pipitor run` then loads the tokens, and
`pipitor twitter-list-sync` finds its own. However it ends, the rows of a user change only when the user logs in,
with whose old token the unfinished retweets go. -/
theorem login_authorizes {manifest : Manifest} {config : Twitter} (hconfig : manifest.twitter = some config)
    (before : Database) (load : Except Error Unit) (run : List Event) {s : State} {ms : List (State × Event)}
    (hs : s = Runs.final (step (usersOf manifest config)) (start manifest before load) run)
    (hms : ms = Runs.moves (step (usersOf manifest config)) (start manifest before load) run) :
    Frame before ms s.db ∧
    (s.phase = .ended (.ok ()) →
      (∀ user ∈ usersOf manifest config, ∃ token, s.db.twitterTokens.find? user = some token ∧
        ((before.twitterTokens.find? user = some token ∧ ∃ m ∈ ms, Verifies user m) ∨
          ∃ m ∈ ms, ∃ granted : AccessToken, token = granted.row ∧ Grants granted m)) ∧
      (∀ (env : CoreEnv) (pool : Pool), env.db.twitterTokens = s.db.twitterTokens → manifest.validate = .ok () →
        env.insertLastTweet = .ok () → env.loadTokens = .ok () →
        ∃ core, (Core.new manifest env (.ok pool)).1 = .ok core ∧
          ∀ user ∈ usersOf manifest config,
            core.twitterTokens user = (s.db.twitterTokens.find? user).map credentials) ∧
      (config.list.isSome → ∃ list token, ListSync.prepare manifest s.db = .ok (list, token))) := by
  have hinv := inv_run hconfig before load run
  rw [← hs, ← hms] at hinv
  refine ⟨hinv.frame, fun hended => ?_⟩
  have hauthorized := hinv.known
  unfold Known at hauthorized
  simp only [hended] at hauthorized
  have htoken : ∀ user ∈ usersOf manifest config, ∃ token, s.db.twitterTokens.find? user = some token ∧
      ((before.twitterTokens.find? user = some token ∧ ∃ m ∈ ms, Verifies user m) ∨
        ∃ m ∈ ms, ∃ granted : AccessToken, token = granted.row ∧ Grants granted m) := by
    intro user huser
    by_cases hlogged : LoggedIn ms user
    · obtain ⟨m, hm, token, -, hgrants, hfind⟩ := hinv.frame.granted user hlogged
      exact ⟨_, hfind, .inr ⟨m, hm, token, rfl, hgrants⟩⟩
    · obtain ⟨hkey, hverified⟩ := (hauthorized user huser).resolve_right hlogged
      cases hfind : before.twitterTokens.find? user with
      | none =>
        rw [Table.find?_eq_none_iff.mp hfind] at hkey
        cases hkey
      | some token => exact ⟨token, (hinv.frame.untouched user hlogged).trans hfind, .inl ⟨rfl, hverified⟩⟩
  have hkey : ∀ user ∈ usersOf manifest config, s.db.twitterTokens.hasKey user = true := by
    intro user huser
    obtain ⟨token, hfind, -⟩ := htoken user huser
    obtain ⟨hmem, rfl⟩ := Table.find?_eq_some_iff.mp hfind
    exact Table.hasKey_of_mem hmem
  refine ⟨htoken, fun env pool hdb hvalid hinsert hload => ?_, fun hlist => ?_⟩
  · rw [← hdb] at hkey ⊢
    exact new_of_tokens hconfig hvalid hinsert hload pool hkey
  · obtain ⟨list, hlist⟩ := Option.isSome_iff_exists.mp hlist
    have huser : config.user ∈ usersOf manifest config := List.mem_dedup.mpr (List.mem_append_right _ (List.mem_singleton_self _))
    obtain ⟨token, hfind, -⟩ := htoken config.user huser
    obtain ⟨client, user, stream, list'⟩ := config
    obtain rfl : list' = some list := hlist
    unfold ListSync.prepare
    rw [hconfig]
    dsimp only
    rw [hfind]
    exact ⟨_, _, rfl⟩

/-! ### Two users log in, one of whom is asked for -/

def strangerRun : List Event :=
  [.attempt (.granted ⟨2, ⟨"other", "secret"⟩⟩ (.ok ())), .attempt (.granted ⟨1, ⟨"token", "secret"⟩⟩ (.ok ()))]

/-- The program for the manifest of user 1, without a token. -/
def strangerState : State :=
  Runs.final (step [1]) (start (sampleManifest none [.twitter 10]) .empty (.ok ())) strangerRun

/-- A start after it in which nothing fails. -/
def strangerEnv : CoreEnv := ⟨strangerState.db, .ok (), .ok (), .ok (), .ok (), .ok ()⟩

theorem login_authorizes_stranger :
    ∃ core, (Core.new (sampleManifest none [.twitter 10]) strangerEnv (.ok ⟨"pipitor.sqlite3", 0⟩)).1 = .ok core ∧
      ∀ user ∈ usersOf (sampleManifest none [.twitter 10]) ⟨⟨"key", "secret"⟩, 1, false, none⟩,
        core.twitterTokens user = (strangerState.db.twitterTokens.find? user).map credentials := by
  have hended : strangerState.phase = .ended (.ok ()) := by with_unfolding_all rfl
  exact ((@login_authorizes (sampleManifest none [.twitter 10]) ⟨⟨"key", "secret"⟩, 1, false, none⟩ rfl .empty (.ok ())
    strangerRun strangerState _ rfl rfl).2 hended).2.1 strangerEnv ⟨"pipitor.sqlite3", 0⟩ rfl rfl rfl rfl

end Login

end Pipitor.App
