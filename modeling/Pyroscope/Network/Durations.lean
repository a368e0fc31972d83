import Pyroscope.Lib.Transition
import Pyroscope.Network.Requests

/-!
# The durations of the phases of a request

The handlers store a duration in the record in use instead of adding it, and a handshake always in
the first record.
-/

namespace Pyroscope.Network

open Transition Function NetworkRequestInfo Option

inductive Phase where
  | dns
  | connect
  | handshake
  | response
  deriving DecidableEq

inductive Role where
  | starts (phase : Phase)
  | stops (phase : Phase)
  | hops
  | other
  deriving DecidableEq

def Report.role : Report → Role
  | .dnsResolutionStart => .starts .dns
  | .dnsResolutionStop _ => .stops .dns
  | .connectStart => .starts .connect
  | .connectStop | .connectFailed _ => .stops .connect
  | .handshakeStart => .starts .handshake
  | .handshakeStop | .handshakeFailed _ => .stops .handshake
  | .responseContentStart => .starts .response
  | .responseContentStop => .stops .response
  | .responseHeaderStop statusCode => if isRedirect statusCode then .hops else .other
  | .requestFailed _ | .redirect _ | .requestHeaderStart => .other

namespace NetworkRequestCommon

def startTime (record : NetworkRequestCommon) : Phase → Int
  | .dns => record.dnsStartTime
  | .connect => record.socketConnectStartTime
  | .handshake => record.handshakeStartTime
  | .response => record.responseContentStartTimestamp

def duration (record : NetworkRequestCommon) : Phase → Int
  | .dns => record.dnsDuration
  | .connect => record.socketDuration
  | .handshake => record.handshakeDuration
  | .response => record.responseDuration

end NetworkRequestCommon

def RawNetworkSample.duration (sample : RawNetworkSample) : Phase → Int
  | .dns => sample.dnsDuration
  | .connect => sample.socketConnectDuration
  | .handshake => sample.handshakeDuration
  | .response => sample.responseDuration

@[ext]
structure Clocks where
  redirected : Bool
  startTime : Phase → Int
  first : Phase → Int
  second : Phase → Int

def NetworkRequestInfo.clocks (info : NetworkRequestInfo) : Clocks where
  redirected := info.redirect.isSome
  startTime := info.current.startTime
  first := info.toNetworkRequestCommon.duration
  second phase := info.redirect.elim 0 (·.duration phase)

namespace Clocks

def start (clocks : Clocks) (phase : Phase) (timestamp : Int) : Clocks :=
  { clocks with startTime := update clocks.startTime phase timestamp }

/-- The duration replaces the one in the record in use; a handshake's is always in the first. -/
def stop (clocks : Clocks) (phase : Phase) (timestamp : Int) : Clocks :=
  if clocks.redirected ∧ phase ≠ .handshake then
    { clocks with
      second := update clocks.second phase (timestamp - clocks.startTime phase) }
  else
    { clocks with
      first := update clocks.first phase (timestamp - clocks.startTime phase) }

def hop (clocks : Clocks) : Clocks :=
  if clocks.redirected then clocks else { clocks with redirected := true, startTime := fun _ => 0 }

def step (clocks : Clocks) (timestamp : Int) : Role → Clocks
  | .starts phase => clocks.start phase timestamp
  | .stops phase => clocks.stop phase timestamp
  | .hops => clocks.hop
  | .other => clocks

end Clocks

section Handlers

variable {info : NetworkRequestInfo} {change : NetworkRequestCommon → NetworkRequestCommon}
  {phase : Phase} {timestamp : Int}

theorem clocks_update_start
    (starts : ∀ record other, (change record).startTime other =
      update record.startTime phase timestamp other)
    (same : ∀ record, (change record).duration = record.duration) :
    (info.update change).clocks = info.clocks.start phase timestamp := by
  have starts : ∀ record, (change record).startTime =
      update record.startTime phase timestamp := fun record => funext (starts record)
  cases redirect : info.redirect <;>
    simp [NetworkRequestInfo.update, NetworkRequestInfo.clocks, NetworkRequestInfo.current,
      Clocks.start, redirect, starts, same]

theorem clocks_update_stop (stored : phase ≠ .handshake)
    (same : ∀ record, (change record).startTime = record.startTime)
    (stops : ∀ record other, (change record).duration other =
      update record.duration phase (timestamp - record.startTime phase) other) :
    (info.update change).clocks = info.clocks.stop phase timestamp := by
  have stops : ∀ record, (change record).duration =
      update record.duration phase (timestamp - record.startTime phase) :=
    fun record => funext (stops record)
  cases redirect : info.redirect <;>
    simp [NetworkRequestInfo.update, NetworkRequestInfo.clocks, NetworkRequestInfo.current,
      Clocks.stop, redirect, stops, same, stored]

theorem clocks_update_other (starts : ∀ record, (change record).startTime = record.startTime)
    (durations : ∀ record, (change record).duration = record.duration) :
    (info.update change).clocks = info.clocks := by
  cases redirect : info.redirect <;>
    simp [NetworkRequestInfo.update, NetworkRequestInfo.clocks, NetworkRequestInfo.current,
      redirect, starts, durations]

theorem clocks_updateHandshakeDuration :
    (info.updateHandshakeDuration timestamp).clocks = info.clocks.stop .handshake timestamp := by
  rw [Clocks.stop, if_neg (fun both => both.2 rfl)]
  refine Clocks.ext rfl ?_ ?_ rfl
  · funext phase
    cases redirect : info.redirect <;> cases phase <;>
      simp [updateHandshakeDuration, clocks, current, NetworkRequestCommon.startTime, redirect]
  · funext phase
    cases phase <;> rfl

theorem clocks_onHandshakeStop :
    (info.onHandshakeStop timestamp).clocks = info.clocks.stop .handshake timestamp := by
  rw [← clocks_updateHandshakeDuration]
  apply clocks_update_other
  · exact fun record => rfl
  · exact fun record => rfl

theorem clocks_onDnsResolutionStop (success : Bool) :
    (info.onDnsResolutionStop timestamp success).clocks = info.clocks.stop .dns timestamp := by
  have stored : (info.update (stopDns timestamp)).clocks = info.clocks.stop .dns timestamp := by
    apply clocks_update_stop
    · nofun
    · exact fun record => rfl
    · intro record phase
      cases phase <;> rfl
  exact stored

theorem clocks_onConnectStop :
    (info.onConnectStop timestamp).clocks = info.clocks.stop .connect timestamp := by
  apply clocks_update_stop
  · nofun
  · exact fun record => rfl
  · intro record phase
    cases phase <;> rfl

theorem clocks_setRedirect {record after : NetworkRequestCommon}
    (redirect : info.redirect = some record) (starts : after.startTime = record.startTime)
    (durations : after.duration = record.duration) :
    { info with redirect := some after }.clocks = info.clocks := by
  simp [clocks, current, redirect, starts, durations]

theorem clocks_onRedirect (redirectUrl : String) :
    (info.onRedirect redirectUrl).clocks = info.clocks := by
  cases redirect : info.redirect with
  | none =>
    simp [onRedirect, clocks, current, redirect]
  | some record =>
    rw [onRedirect, redirect]
    exact clocks_setRedirect redirect rfl rfl

theorem clocks_onResponseHeaderStop (statusCode : Nat) :
    (info.onResponseHeaderStop timestamp statusCode).clocks =
      if isRedirect statusCode then info.clocks.hop else info.clocks := by
  rw [onResponseHeaderStop]
  split
  next redirect =>
    split
    case isTrue redirects =>
      -- The new record has no times yet, so it reads as if there were none.
      rw [Clocks.hop, if_neg (by simp [clocks, redirect])]
      refine Clocks.ext rfl ?_ rfl ?_
      · funext phase
        cases phase <;> rfl
      · funext phase
        cases phase <;> simp [clocks, redirect] <;> rfl
    case isFalse =>
      simp only [clocks, current, redirect]
      rfl
  next record redirect =>
    refine (clocks_setRedirect redirect rfl rfl).trans ?_
    have stays : info.clocks.hop = info.clocks :=
      if_pos (by simp [clocks, redirect])
    rw [stays, ite_self]

end Handlers

theorem clocks_handle (info : NetworkRequestInfo) (timestamp : Int) (report : Report) :
    (info.handle timestamp report).clocks = info.clocks.step timestamp report.role := by
  cases report with
  | requestFailed message => rfl
  | redirect redirectUrl => exact clocks_onRedirect redirectUrl
  | requestHeaderStart => exact clocks_update_other (fun _ => rfl) (fun _ => rfl)
  | responseHeaderStop statusCode =>
    refine (clocks_onResponseHeaderStop statusCode).trans ?_
    rw [Report.role]
    split <;> rfl
  | dnsResolutionStart | connectStart | handshakeStart | responseContentStart =>
    apply clocks_update_start
    · intro record phase
      cases phase <;> rfl
    · exact fun record => rfl
  | dnsResolutionStop success => exact clocks_onDnsResolutionStop success
  | connectStop => exact clocks_onConnectStop
  | connectFailed message => exact clocks_onConnectStop
  | handshakeStop => exact clocks_onHandshakeStop
  | handshakeFailed message => exact clocks_onHandshakeStop
  | responseContentStop =>
    apply clocks_update_stop
    · nofun
    · exact fun record => rfl
    · intro record phase
      cases phase <;> rfl

/-! ## The time spent in a phase -/

structure Event where
  timestamp : Int
  /-- The activity of the phase below the one of the request. -/
  activity : Nat
  report : Report
  deriving DecidableEq

structure Account where
  latest : Int
  redirected : Bool
  started : Phase → Nat → Option Int
  lastStart : Phase → Option Int
  /-- The time spent in a phase, on the first hop and on the redirected ones. -/
  spent : Bool → Phase → Int

namespace Account

def start (account : Account) (phase : Phase) (activity : Nat) (timestamp : Int) : Account :=
  { account with
    latest := timestamp
    started := update account.started phase
      (update (account.started phase) activity (some timestamp))
    lastStart := update account.lastStart phase (some timestamp) }

def stop (account : Account) (phase : Phase) (activity : Nat) (startTime timestamp : Int) :
    Account :=
  { account with
    latest := timestamp
    started := update account.started phase (update (account.started phase) activity none)
    spent := fun redirected other =>
      if redirected = account.redirected ∧ other = phase then
        account.spent redirected other + (timestamp - startTime)
      else account.spent redirected other }

def hop (account : Account) (timestamp : Int) : Account :=
  { account with
    latest := timestamp
    redirected := true
    started := fun _ _ => none
    lastStart := fun _ => none }

/-- The events are in the order of time, and a phase stops on the hop on which it was started. -/
def next (account : Account) (event : Event) : Option Account :=
  if event.timestamp < account.latest then none
  else
    match event.report.role with
    | .starts phase => some (account.start phase event.activity event.timestamp)
    | .stops phase =>
      (account.started phase event.activity).map fun startTime =>
        account.stop phase event.activity startTime event.timestamp
    | .hops => some (account.hop event.timestamp)
    | .other => some { account with latest := event.timestamp }

def total (account : Account) (phase : Phase) : Int :=
  account.spent false phase + account.spent true phase

/--
A phase which stops is the one which was started last, and none of its time has been stored in
the record in use before; for a handshake, in any record.
-/
def Unstored (account : Account) (activity : Nat) : Role → Prop
  | .stops phase =>
    account.lastStart phase = account.started phase activity ∧
      (if phase = .handshake then account.total phase
        else account.spent account.redirected phase) = 0
  | .starts _ | .hops | .other => True

instance (account : Account) (activity : Nat) : ∀ role, Decidable (account.Unstored activity role)
  | .stops _ => inferInstanceAs (Decidable (_ ∧ _))
  | .starts _ | .hops | .other => inferInstanceAs (Decidable True)

end Account

structure Request where
  info : NetworkRequestInfo
  account : Account

namespace Request

def new (url : String) (timestamp : Int) : Request where
  info := .new url timestamp
  account :=
    { latest := timestamp
      redirected := false
      started := fun _ _ => none
      lastStart := fun _ => none
      spent := fun _ _ => 0 }

def next (request : Request) (event : Event) : Option Request :=
  (request.account.next event).map fun account =>
    { info := request.info.handle event.timestamp event.report, account }

def system (url : String) (timestamp : Int) : System Request Event :=
  .ofFunction (.new url timestamp) next

/-- Every sample which the stop of the request can build has the time spent in each phase. -/
def Exact (request : Request) : Prop :=
  ∀ config timestamp statusCode sample,
    request.info.onRequestStop config timestamp statusCode = some sample →
      ∀ phase, sample.duration phase = request.account.total phase

def Unstored (request : Request) (event : Event) : Prop :=
  request.account.Unstored event.activity event.report.role

end Request

/-! ## The records against the account -/

namespace Clocks

def sum (clocks : Clocks) (phase : Phase) : Int :=
  clocks.first phase + clocks.second phase

def replaced (clocks : Clocks) (phase : Phase) : Int :=
  if clocks.redirected ∧ phase ≠ .handshake then clocks.second phase else clocks.first phase

variable {clocks : Clocks} {phase other : Phase} {timestamp : Int}

theorem sum_hop : clocks.hop.sum phase = clocks.sum phase := by
  rw [hop]
  split <;> rfl

theorem stop_redirected : (clocks.stop phase timestamp).redirected = clocks.redirected := by
  rw [stop]
  split <;> rfl

theorem stop_startTime : (clocks.stop phase timestamp).startTime = clocks.startTime := by
  rw [stop]
  split <;> rfl

theorem sum_stop_self : (clocks.stop phase timestamp).sum phase =
    clocks.sum phase - clocks.replaced phase + (timestamp - clocks.startTime phase) := by
  rw [stop, replaced]
  split
  · simp only [sum, update_self]
    omega
  · simp only [sum, update_self]
    omega

theorem stop_of_ne (different : other ≠ phase) :
    (clocks.stop phase timestamp).first other = clocks.first other ∧
      (clocks.stop phase timestamp).second other = clocks.second other := by
  rw [stop]
  split <;> simp [update_of_ne different]

end Clocks

namespace Account

variable {account after : Account} {phase other : Phase} {activity : Nat}
  {startTime timestamp : Int} {redirected : Bool}

theorem spent_stop_of_ne (different : other ≠ phase) :
    (account.stop phase activity startTime timestamp).spent redirected other =
      account.spent redirected other :=
  if_neg fun both => different both.2

theorem total_stop_of_ne (different : other ≠ phase) :
    (account.stop phase activity startTime timestamp).total other = account.total other := by
  rw [total, spent_stop_of_ne different, spent_stop_of_ne different]
  rfl

theorem total_stop_self : (account.stop phase activity startTime timestamp).total phase =
    account.total phase + (timestamp - startTime) := by
  simp only [total, stop, and_true]
  cases account.redirected
  · simp
    omega
  · simp
    omega

end Account

/-- The records hold no more than the account, and the last start of each phase. -/
structure Sound (clocks : Clocks) (account : Account) : Prop where
  redirected : clocks.redirected = account.redirected
  lastStart : ∀ phase time, account.lastStart phase = some time →
    clocks.startTime phase = time ∧ time ≤ account.latest
  started : ∀ phase activity time, account.started phase activity = some time →
    ∃ last, account.lastStart phase = some last ∧ time ≤ last
  spent : ∀ redirected phase, 0 ≤ account.spent redirected phase
  first : ∀ phase, 0 ≤ clocks.first phase
  second : ∀ phase, 0 ≤ clocks.second phase
  stored : ∀ phase, phase ≠ .handshake →
    clocks.first phase ≤ account.spent false phase ∧ clocks.second phase ≤ account.spent true phase
  handshake : clocks.first .handshake ≤ account.total .handshake ∧ clocks.second .handshake = 0

namespace Sound

variable {clocks : Clocks} {account : Account} {phase : Phase} {activity : Nat}
  {startTime timestamp : Int}

theorem new (url : String) :
    Sound (new url timestamp).clocks (Request.new url timestamp).account where
  redirected := rfl
  lastStart := nofun
  started := nofun
  spent _ _ := Int.le_refl 0
  first phase := by cases phase <;> exact Int.le_refl 0
  second phase := Int.le_refl 0
  stored phase _ := by cases phase <;> exact ⟨Int.le_refl 0, Int.le_refl 0⟩
  handshake := ⟨Int.le_refl 0, rfl⟩

variable (sound : Sound clocks account)
include sound

theorem later (order : account.latest ≤ timestamp) :
    Sound clocks { account with latest := timestamp } :=
  { sound with
    lastStart phase time last :=
      ⟨(sound.lastStart phase time last).1,
        Int.le_trans (sound.lastStart phase time last).2 order⟩ }

theorem start (order : account.latest ≤ timestamp) :
    Sound (clocks.start phase timestamp) (account.start phase activity timestamp) := by
  refine { sound with lastStart := ?_, started := ?_ }
  · intro other time last
    by_cases same : other = phase
    · subst same
      simp only [Account.start, update_self, some.injEq] at last
      subst last
      exact ⟨update_self _ _ _, Int.le_refl _⟩
    · simp only [Account.start, update_of_ne same] at last
      rcases sound.lastStart other time last with ⟨shown, earlier⟩
      exact ⟨(update_of_ne same _ _).trans shown, Int.le_trans earlier order⟩
  · intro other one time running
    by_cases same : other = phase
    · subst same
      refine ⟨timestamp, update_self _ _ _, ?_⟩
      simp only [Account.start, update_self] at running
      by_cases again : one = activity
      · subst again
        rw [update_self, some.injEq] at running
        exact Int.le_of_eq running.symm
      · rw [update_of_ne again] at running
        rcases sound.started other one time running with ⟨last, known, earlier⟩
        exact Int.le_trans earlier (Int.le_trans (sound.lastStart other last known).2 order)
    · simp only [Account.start, update_of_ne same] at running ⊢
      exact sound.started other one time running

theorem hop : Sound clocks.hop (account.hop timestamp) where
  redirected := by
    rw [Clocks.hop]
    split
    case isTrue redirected => exact redirected
    case isFalse => rfl
  lastStart := nofun
  started := nofun
  spent := sound.spent
  first phase := by
    rw [Clocks.hop]
    split <;> exact sound.first phase
  second phase := by
    rw [Clocks.hop]
    split <;> exact sound.second phase
  stored phase other := by
    rw [Clocks.hop]
    split <;> exact sound.stored phase other
  handshake := by
    rw [Clocks.hop]
    split <;> exact sound.handshake

theorem running (started : account.started phase activity = some startTime)
    (order : account.latest ≤ timestamp) :
    account.lastStart phase = some (clocks.startTime phase) ∧
      startTime ≤ clocks.startTime phase ∧ clocks.startTime phase ≤ timestamp := by
  rcases sound.started phase activity startTime started with ⟨last, known, earlier⟩
  rcases sound.lastStart phase last known with ⟨rfl, before⟩
  exact ⟨known, earlier, Int.le_trans before order⟩

theorem replaced_nonneg : 0 ≤ clocks.replaced phase := by
  rw [Clocks.replaced]
  split
  · exact sound.second phase
  · exact sound.first phase

theorem sum_le : clocks.sum phase ≤ account.total phase := by
  rw [Clocks.sum]
  by_cases handshake : phase = .handshake
  · subst handshake
    have most := sound.handshake
    omega
  · have most := sound.stored phase handshake
    rw [Account.total]
    omega

theorem stop (started : account.started phase activity = some startTime)
    (order : account.latest ≤ timestamp) :
    Sound (clocks.stop phase timestamp) (account.stop phase activity startTime timestamp) := by
  rcases sound.running started order with ⟨-, earlier, before⟩
  have stopped : 0 ≤ timestamp - clocks.startTime phase := by omega
  refine ⟨Clocks.stop_redirected.trans sound.redirected, ?_, ?_, ?_, ?_, ?_, ?_, ?_⟩
  · rw [Clocks.stop_startTime]
    exact (sound.later order).lastStart
  · intro other one time running
    apply sound.started other one time
    by_cases same : other = phase
    · subst same
      simp only [Account.stop, update_self] at running
      by_cases again : one = activity
      · rw [again, update_self] at running
        cases running
      · rwa [update_of_ne again] at running
    · simpa only [Account.stop, update_of_ne same] using running
  · intro redirected other
    have before := sound.spent redirected other
    simp only [Account.stop]
    split <;> omega
  · rw [Clocks.stop]
    split
    · exact sound.first
    · apply (forall_update_iff clocks.first fun _ stored => 0 ≤ stored).mpr
      exact ⟨stopped, fun other _ => sound.first other⟩
  · rw [Clocks.stop]
    split
    · apply (forall_update_iff clocks.second fun _ stored => 0 ≤ stored).mpr
      exact ⟨stopped, fun other _ => sound.second other⟩
    · exact sound.second
  · intro other stored
    by_cases same : other = phase
    · subst same
      have before := sound.stored other stored
      have spent := sound.spent account.redirected other
      rw [Clocks.stop, sound.redirected]
      cases redirected : account.redirected with
      | false =>
        rw [redirected] at spent
        simp [Account.stop, redirected]
        omega
      | true =>
        rw [redirected] at spent
        simp [Account.stop, redirected, stored]
        omega
    · rw [(Clocks.stop_of_ne same).1, (Clocks.stop_of_ne same).2, Account.spent_stop_of_ne same,
        Account.spent_stop_of_ne same]
      exact sound.stored other stored
  · by_cases same : .handshake = phase
    · subst same
      have first := sound.spent false .handshake
      have redirected := sound.spent true .handshake
      rw [Account.total_stop_self, Account.total, Clocks.stop, if_neg fun both => both.2 rfl]
      refine ⟨?_, sound.handshake.2⟩
      simp only [update_self]
      omega
    · rw [(Clocks.stop_of_ne same).1, (Clocks.stop_of_ne same).2, Account.total_stop_of_ne same]
      exact sound.handshake

theorem replaced_eq (exact : clocks.sum phase = account.total phase) :
    clocks.replaced phase =
      if phase = .handshake then account.total phase
      else account.spent account.redirected phase := by
  rw [Clocks.sum] at exact
  rw [Clocks.replaced, sound.redirected]
  by_cases handshake : phase = .handshake
  · subst handshake
    have most := sound.handshake
    simp only [ne_eq, not_true_eq_false, and_false, if_false, if_true]
    omega
  · have most := sound.stored phase handshake
    rw [Account.total] at exact
    simp only [ne_eq, handshake, not_false_eq_true, and_true, if_false]
    cases account.redirected <;> simp <;> omega

theorem exact_stop (started : account.started phase activity = some startTime)
    (order : account.latest ≤ timestamp) :
    (∀ other, (clocks.stop phase timestamp).sum other =
        (account.stop phase activity startTime timestamp).total other) ↔
      (∀ other, clocks.sum other = account.total other) ∧
        account.lastStart phase = account.started phase activity ∧
          (if phase = .handshake then account.total phase
            else account.spent account.redirected phase) = 0 := by
  rcases sound.running started order with ⟨last, earlier, before⟩
  have most : clocks.sum phase ≤ account.total phase := sound.sum_le
  have least : 0 ≤ clocks.replaced phase := sound.replaced_nonneg
  have others : ∀ other, other ≠ phase →
      ((clocks.stop phase timestamp).sum other =
          (account.stop phase activity startTime timestamp).total other ↔
        clocks.sum other = account.total other) := by
    intro other different
    rw [Account.total_stop_of_ne different, Clocks.sum, (Clocks.stop_of_ne different).1,
      (Clocks.stop_of_ne different).2, Clocks.sum]
  have own : (clocks.stop phase timestamp).sum phase =
        (account.stop phase activity startTime timestamp).total phase ↔
      clocks.sum phase = account.total phase ∧ clocks.startTime phase = startTime ∧
        clocks.replaced phase = 0 := by
    rw [Clocks.sum_stop_self, Account.total_stop_self]
    omega
  rw [last, started, some.injEq]
  constructor
  · intro exact
    rcases own.mp (exact phase) with ⟨same, alone, nothing⟩
    refine ⟨?_, alone, ?_⟩
    · intro other
      by_cases equal : other = phase
      · rw [equal]
        exact same
      · exact (others other equal).mp (exact other)
    · rw [← sound.replaced_eq same]
      exact nothing
  · rintro ⟨exact, alone, nothing⟩ other
    by_cases equal : other = phase
    · rw [equal, own]
      refine ⟨exact phase, alone, ?_⟩
      rw [sound.replaced_eq (exact phase)]
      exact nothing
    · exact (others other equal).mpr (exact other)

end Sound

/-! ## Whole requests -/

theorem duration_rawSample (info : NetworkRequestInfo) (timestamp : Int) (statusCode : Nat)
    (phase : Phase) :
    (info.rawSample timestamp statusCode).duration phase = info.clocks.sum phase := by
  cases phase <;> rfl

namespace Request

variable {request after : Request} {event : Event} {events : List Event} {url : String}
  {timestamp : Int}

theorem exact_iff :
    request.Exact ↔ ∀ phase, request.info.clocks.sum phase = request.account.total phase := by
  constructor
  · intro exact phase
    rw [← duration_rawSample request.info 0 0]
    exact exact ⟨true, 0⟩ 0 0 _ (if_neg nofun) phase
  · intro same config timestamp statusCode sample built phase
    rw [onRequestStop, ite_none_left_eq_some, some.injEq] at built
    rw [← built.2, duration_rawSample]
    exact same phase

theorem exact_step (sound : Sound request.info.clocks request.account)
    (taken : (system url timestamp).step request event after) :
    Sound after.info.clocks after.account ∧
      (after.Exact ↔ request.Exact ∧ request.Unstored event) := by
  have result : request.next event = some after := taken
  simp only [next, map_eq_some_iff, Account.next, ite_none_left_eq_some] at result
  rcases result with ⟨account, ⟨order, moved⟩, rfl⟩
  rw [Int.not_lt] at order
  rw [exact_iff, exact_iff]
  simp only [clocks_handle]
  cases role : event.report.role with
  | starts phase =>
    simp only [role, some.injEq] at moved
    subst moved
    refine ⟨sound.start order, ?_⟩
    rw [Unstored, role]
    exact (and_iff_left trivial).symm
  | stops phase =>
    simp only [role, map_eq_some_iff] at moved
    rcases moved with ⟨startTime, started, rfl⟩
    refine ⟨sound.stop started order, ?_⟩
    rw [Unstored, role]
    exact sound.exact_stop started order
  | hops =>
    simp only [role, some.injEq] at moved
    subst moved
    refine ⟨sound.hop, ?_⟩
    rw [Unstored, role]
    refine Iff.trans ?_ (and_iff_left trivial).symm
    simp only [Clocks.step, Clocks.sum_hop]
    rfl
  | other =>
    simp only [role, some.injEq] at moved
    subst moved
    refine ⟨sound.later order, ?_⟩
    rw [Unstored, role]
    exact (and_iff_left trivial).symm

/-- The sample is exact after exactly the runs in which no stop replaces time already spent. -/
theorem durations_exact_iff (run : (system url timestamp).Run (.new url timestamp) events request) :
    request.Exact ↔
      ((system url timestamp).restrict Unstored).Run (.new url timestamp) events request := by
  refine System.Run.restrict_iff (fun request => Sound request.info.clocks request.account) Exact
    (Sound.new url) ?_ ?_ run
  · rw [exact_iff]
    intro phase
    cases phase <;> rfl
  · intro request event after sound taken
    exact exact_step sound taken

instance (request : Request) (event : Event) : Decidable (request.Unstored event) :=
  inferInstanceAs (Decidable (request.account.Unstored event.activity event.report.role))

/-- A redirection from a plain connection to a secure one. -/
theorem redirected_once_exact : ∃ request,
    (system "http://localhost" 0).Run (.new "http://localhost" 0)
      [⟨1, 1, .dnsResolutionStart⟩, ⟨3, 1, .dnsResolutionStop true⟩, ⟨3, 2, .connectStart⟩,
        ⟨7, 2, .connectStop⟩, ⟨8, 3, .requestHeaderStart⟩, ⟨9, 4, .responseHeaderStop 301⟩,
        ⟨10, 5, .dnsResolutionStart⟩, ⟨15, 5, .dnsResolutionStop true⟩, ⟨15, 6, .handshakeStart⟩,
        ⟨21, 6, .handshakeStop⟩, ⟨22, 7, .responseHeaderStop 200⟩,
        ⟨22, 8, .responseContentStart⟩, ⟨30, 8, .responseContentStop⟩] request ∧
    request.account.total .dns = 7 ∧ request.Exact := by
  refine System.exists_run_of_restricted_exec Unstored rfl (by decide +kernel) ?_
  intro run
  exact ⟨rfl, (durations_exact_iff run.of_restrict).mpr run⟩

/-- Two secure hops and two redirections, each with one phase: the sample has the last ones. -/
theorem earlier_hops_missed :
    (∃ request, (system "https://localhost" 0).Run (.new "https://localhost" 0)
        [⟨1, 1, .handshakeStart⟩, ⟨11, 1, .handshakeStop⟩, ⟨12, 2, .responseHeaderStop 302⟩,
          ⟨20, 3, .handshakeStart⟩, ⟨25, 3, .handshakeStop⟩] request ∧
      request.account.total .handshake = 15 ∧
      (request.info.rawSample 30 200).handshakeDuration = 5) ∧
    ∃ request, (system "https://localhost" 0).Run (.new "https://localhost" 0)
        [⟨1, 1, .responseHeaderStop 302⟩, ⟨2, 2, .dnsResolutionStart⟩,
          ⟨12, 2, .dnsResolutionStop true⟩, ⟨13, 3, .responseHeaderStop 302⟩,
          ⟨20, 4, .dnsResolutionStart⟩, ⟨25, 4, .dnsResolutionStop true⟩] request ∧
      request.account.total .dns = 15 ∧ (request.info.rawSample 30 200).dnsDuration = 5 :=
  ⟨⟨_, System.run_of_exec rfl, rfl, rfl⟩, ⟨_, System.run_of_exec rfl, rfl, rfl⟩⟩

/-- Even where time is missed, no sample has more of a phase than was spent in it. -/
theorem durations_at_most_spent
    (run : (system url timestamp).Run (.new url timestamp) events request)
    (config : Configuration) (stopped : Int) (statusCode : Nat) {sample : RawNetworkSample}
    (built : request.info.onRequestStop config stopped statusCode = some sample)
    (phase : Phase) :
    0 ≤ sample.duration phase ∧ sample.duration phase ≤ request.account.total phase := by
  have sound : Sound request.info.clocks request.account :=
    run.invariant (fun request => Sound request.info.clocks request.account) (.new url)
      fun _ _ _ sound taken => (exact_step sound taken).1
  rw [onRequestStop, ite_none_left_eq_some, some.injEq] at built
  rw [← built.2, duration_rawSample]
  exact ⟨Int.add_nonneg (sound.first phase) (sound.second phase), sound.sum_le⟩

theorem missed_handshake_at_most_spent : ∃ request,
    (system "" 0).Run (.new "" 0) [⟨1, 1, .handshakeStart⟩, ⟨11, 1, .handshakeStop⟩,
      ⟨20, 3, .handshakeStart⟩, ⟨25, 3, .handshakeStop⟩] request ∧
    request.account.total .handshake = 15 ∧
    ∃ sample, request.info.onRequestStop ⟨true, 0⟩ 30 200 = some sample ∧
      sample.duration .handshake ≤ request.account.total .handshake := by
  refine System.exists_run_of_exec rfl ?_
  intro run
  exact ⟨rfl, _, rfl, (durations_at_most_spent run ⟨true, 0⟩ 30 200 rfl .handshake).2⟩

end Request

end Pyroscope.Network
