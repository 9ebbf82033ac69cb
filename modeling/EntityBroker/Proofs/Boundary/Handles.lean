import EntityBroker.Boundary.Handles
import EntityBroker.Proofs.Boundary.Custody

/-!
# Runs of handles

What an action does to the handles that are open and to the ledger is one of six effects
(`effect_after`), and every invariant is shown for these alone. After any run the ledger has the
handles that are open and no others, and handles that own a manager together are of one family
(`kept_run`). A manager is released when its last handle goes, is never owned again, and has been
released by the time every handle is closed (`managers_released`).
-/

namespace EntityBroker.Boundary

/-- What is done with handles. -/
inductive Action (σ : Type) where
  | exportManager (name : String) (manager : Manager σ) (state : σ)
  | closeExport (name : String)
  | share (name : String) (source : SuiteSource σ) (error : Option View) (hasOut : Bool)
  | closeShared (name : String)
  | openSession (name : String) (session : Session)
  | closeSession (name : String)
  | makeHost (name manager session : String) (error : Option View) (hasOut : Bool)
  | closeHost (name : String)
  | adapt (name : String) (source : SuiteSource σ) (session : Session)
  | cloneAdapter (name source : String)
  | closeAdapter (name : String)

/-- The handle that an action closes, if closing is what it is for. -/
def Action.closes? {σ : Type} : Action σ → Option Handle
  | .closeExport name => some (.exported name)
  | .closeShared name => some (.shared name)
  | .closeHost name => some (.host name)
  | .closeAdapter name => some (.adapter name)
  | _ => none

/-- Handles that may own a manager together. -/
inductive Family where
  | export (name : String)
  | hosts
  | adapters
  deriving DecidableEq

def Handle.family : Handle → Family
  | .exported name => .export name
  | .shared _ => .hosts
  | .host _ => .hosts
  | .adapter _ => .adapters

namespace Handles

variable {σ : Type} {h next : Handles σ} {handle : Handle} {manager : Nat}

def after (h : Handles σ) : Action σ → Handles σ
  | .exportManager name manager state => h.exportManager name manager state
  | .closeExport name => h.closeExport name
  | .share name source error hasOut => (h.share name source error hasOut).1
  | .closeShared name => h.closeShared name
  | .openSession name session => h.openSession name session
  | .closeSession name => h.closeSession name
  | .makeHost name manager session error hasOut => (h.makeHost name manager session error hasOut).1
  | .closeHost name => h.closeHost name
  | .adapt name source session => h.adapt name source session
  | .cloneAdapter name source => h.cloneAdapter name source
  | .closeAdapter name => h.closeAdapter name

def run (h : Handles σ) (actions : List (Action σ)) : Handles σ := actions.foldl after h

def isOpen (h : Handles σ) : Handle → Bool
  | .exported name => h.exports.contains name
  | .shared name => h.shareds.contains name
  | .host name => h.hosts.contains name
  | .adapter name => h.adapters.contains name

-- ---------------------------------------------------------------- what an action does

/-- What an action does to the ledger and to the handles that are open. -/
inductive Effect (h next : Handles σ) : Prop
  | kept (hcustody : next.custody = h.custody) (hopen : ∀ x, next.isOpen x = h.isOpen x)
  | discarded (hcustody : next.custody = h.custody.discard)
      (hopen : ∀ x, next.isOpen x = h.isOpen x)
  | closed (handle : Handle) (hcustody : next.custody = h.custody.release handle)
      (hopen : ∀ x, next.isOpen x = (decide (x ≠ handle) && h.isOpen x))
  | opened (handle : Handle) (hcustody : next.custody = h.custody.acquire handle)
      (hopen : ∀ x, next.isOpen x = (decide (x = handle) || h.isOpen x))
  | joined (handle other : Handle) (hother : h.isOpen other = true)
      (hfamily : handle.family = other.family)
      (hcustody : next.custody = h.custody.share handle other)
      (hopen : ∀ x, next.isOpen x = (decide (x = handle) || h.isOpen x))
  | moved (handle : Handle) (name : String) (hname : h.isOpen (.exported name) = true)
      (hne : handle ≠ .exported name)
      (hcustody : next.custody = h.custody.transfer handle (.exported name))
      (hopen : ∀ x, next.isOpen x =
        (decide (x ≠ .exported name) && (decide (x = handle) || h.isOpen x)))

theorem effect_closeExport (h : Handles σ) (name : String) : Effect h (h.closeExport name) := by
  refine .closed (.exported name) rfl fun x => ?_
  cases x <;> simp [isOpen, closeExport, Dict.contains_erase]

theorem effect_letGo (h : Handles σ) (source : SuiteSource σ) : Effect h (h.letGo source) := by
  cases source with
  | given suite state => exact .discarded rfl fun _ => rfl
  | exported name => exact effect_closeExport h name
  | missing => exact .kept rfl fun _ => rfl

@[simp] theorem shareds_take (h : Handles σ) (handle : Handle) (source : SuiteSource σ) :
    (h.take handle source).shareds = h.shareds := by
  cases source <;> rfl

@[simp] theorem adapters_take (h : Handles σ) (handle : Handle) (source : SuiteSource σ) :
    (h.take handle source).adapters = h.adapters := by
  cases source <;> rfl

/-- Opening a handle on what a source has. An export that is the source is closed by it. -/
theorem effect_take (handle : Handle) {source : SuiteSource σ} {found : Suite σ × σ}
    (hfound : h.look source = some found) (hhandle : ∀ name, handle ≠ .exported name)
    (hcustody : next.custody = (h.take handle source).custody)
    (hopen : ∀ x, next.isOpen x = (decide (x = handle) || (h.take handle source).isOpen x)) :
    Effect h next := by
  cases source with
  | given suite state => exact .opened handle hcustody hopen
  | exported name =>
    have hname : h.isOpen (.exported name) = true := by
      exact Option.isSome_of_eq_some hfound
    refine .moved handle name hname (hhandle name) hcustody fun x => ?_
    have htake : (h.take handle (.exported name)).isOpen x =
        (decide (x ≠ .exported name) && h.isOpen x) := by
      cases x <;> simp [isOpen, take, Dict.contains_erase]
    rw [hopen, htake]
    by_cases hx : x = handle
    · simp [hx, hhandle name]
    · simp [hx]
  | missing => cases hfound

theorem effect_share (h : Handles σ) (name : String) (source : SuiteSource σ)
    (error : Option View) (hasOut : Bool) : Effect h (h.share name source error hasOut).1 := by
  unfold share
  simp only
  split
  · rename_i shared hshared
    have hsome : ∃ found, h.look source = some found := by
      cases hlook : h.look source with
      | none => cases hasOut <;> simp [hlook, shareManager, guard] at hshared
      | some found => exact ⟨found, rfl⟩
    obtain ⟨found, hfound⟩ := hsome
    refine effect_take (.shared name) hfound (fun _ => nofun) rfl fun x => ?_
    cases x <;> simp [isOpen, Dict.contains_insert]
  · exact effect_letGo h source

theorem effect_makeHost (h : Handles σ) (name manager session : String) (error : Option View)
    (hasOut : Bool) : Effect h (h.makeHost name manager session error hasOut).1 := by
  unfold makeHost
  simp only
  split
  · rename_i host hhost
    have hopen : h.isOpen (.shared manager) = true := by
      cases hshared : h.shareds.get? manager with
      | none => cases hasOut <;> simp [hshared, makeBroker, guard] at hhost
      | some shared => simp [isOpen, Dict.contains, hshared]
    refine .joined (.host name) (.shared manager) hopen rfl rfl fun x => ?_
    cases x <;> simp [isOpen, Dict.contains_insert]
  · exact .kept rfl fun _ => rfl

theorem effect_adapt (h : Handles σ) (name : String) (source : SuiteSource σ)
    (session : Session) : Effect h (h.adapt name source session) := by
  unfold adapt
  cases hfound : h.look source with
  | none => exact .kept rfl fun _ => rfl
  | some found =>
    refine effect_take (.adapter name) hfound (fun _ => nofun) rfl fun x => ?_
    cases x <;> simp [isOpen, Dict.contains_insert]

theorem effect_cloneAdapter (h : Handles σ) (name source : String) :
    Effect h (h.cloneAdapter name source) := by
  unfold cloneAdapter
  cases hadapter : h.adapters.get? source with
  | none => exact .kept rfl fun _ => rfl
  | some adapter =>
    have hopen : h.isOpen (.adapter source) = true := by simp [isOpen, Dict.contains, hadapter]
    refine .joined (.adapter name) (.adapter source) hopen rfl rfl fun x => ?_
    cases x <;> simp [isOpen, Dict.contains_insert]

theorem effect_after (h : Handles σ) (action : Action σ) : Effect h (h.after action) := by
  cases action with
  | exportManager name manager state =>
    refine .opened (.exported name) rfl fun x => ?_
    cases x <;> simp [isOpen, after, exportManager, Dict.contains_insert]
  | closeExport name => exact effect_closeExport h name
  | share name source error hasOut => exact effect_share h name source error hasOut
  | closeShared name =>
    refine .closed (.shared name) rfl fun x => ?_
    cases x <;> simp [isOpen, after, closeShared, Dict.contains_erase]
  | openSession name session => exact .kept rfl fun _ => rfl
  | closeSession name => exact .kept rfl fun _ => rfl
  | makeHost name manager session error hasOut =>
    exact effect_makeHost h name manager session error hasOut
  | closeHost name =>
    refine .closed (.host name) rfl fun x => ?_
    cases x <;> simp [isOpen, after, closeHost, Dict.contains_erase]
  | adapt name source session => exact effect_adapt h name source session
  | cloneAdapter name source => exact effect_cloneAdapter h name source
  | closeAdapter name =>
    refine .closed (.adapter name) rfl fun x => ?_
    cases x <;> simp [isOpen, after, closeAdapter, Dict.contains_erase]

-- ---------------------------------------------------------------- the invariant

/-- The ledger has the handles that are open and no others, and only handles of one family own a
manager together. -/
structure Kept (h : Handles σ) : Prop where
  valid : h.custody.Valid
  owns (x : Handle) : (h.custody.owned? x).isSome = h.isOpen x
  apart {x y : Handle} {manager : Nat} (hx : h.custody.owned? x = some manager)
    (hy : h.custody.owned? y = some manager) : x.family = y.family

theorem Kept.empty : Kept (Handles.empty : Handles σ) where
  valid := Custody.Valid.empty
  owns x := by cases x <;> rfl
  apart hx := by cases hx

theorem Effect.step (heffect : Effect h next) : Custody.Step h.custody next.custody := by
  cases heffect with
  | kept hcustody => exact hcustody ▸ .kept
  | discarded hcustody => exact hcustody ▸ .discard
  | closed handle hcustody => exact hcustody ▸ .release handle
  | opened handle hcustody => exact hcustody ▸ .acquire handle
  | joined handle other _ _ hcustody => exact hcustody ▸ .share handle other
  | moved handle name _ _ hcustody => exact hcustody ▸ .transfer handle (.exported name)

/-- An export has its manager for itself. -/
theorem Kept.eq_of_exported (hk : Kept h) {name : String}
    (hname : h.custody.owned? (.exported name) = some manager)
    (hx : h.custody.owned? handle = some manager) : handle = .exported name := by
  have hfamily := hk.apart hx hname
  cases handle <;> simp_all [Handle.family]

section
variable {other : Handle} {name : String}

theorem Kept.kept (hk : Kept h) (hcustody : next.custody = h.custody)
    (hopen : ∀ x, next.isOpen x = h.isOpen x) : Kept next where
  valid := hcustody ▸ hk.valid
  owns x := by rw [hcustody, hopen, hk.owns]
  apart := by
    rw [hcustody]
    exact hk.apart

theorem Kept.discarded (hk : Kept h) (hcustody : next.custody = h.custody.discard)
    (hopen : ∀ x, next.isOpen x = h.isOpen x) : Kept next where
  valid := hcustody ▸ hk.valid.step .discard
  owns x := by rw [hcustody, hopen, Custody.owned?_discard, hk.owns]
  apart := by
    simp only [hcustody, Custody.owned?_discard]
    exact hk.apart

theorem Kept.closed (hk : Kept h) (hcustody : next.custody = h.custody.release handle)
    (hopen : ∀ x, next.isOpen x = (decide (x ≠ handle) && h.isOpen x)) : Kept next := by
  have howned : ∀ x, next.custody.owned? x = if x = handle then none else h.custody.owned? x := by
    rw [hcustody]
    exact h.custody.owned?_release handle
  refine ⟨hcustody ▸ hk.valid.step (.release handle), fun x => ?_, fun {x y manager} hx hy => ?_⟩
  · rw [howned, hopen, ← hk.owns]
    split <;> simp_all
  · rw [howned] at hx hy
    split at hx
    · cases hx
    split at hy
    · cases hy
    exact hk.apart hx hy

/-- The manager of a handle that is opened anew is owned by no other. -/
theorem Kept.opened (hk : Kept h) (hcustody : next.custody = h.custody.acquire handle)
    (hopen : ∀ x, next.isOpen x = (decide (x = handle) || h.isOpen x)) : Kept next := by
  have howned : ∀ x, next.custody.owned? x =
      if x = handle then some h.custody.managers else h.custody.owned? x := by
    rw [hcustody]
    exact h.custody.owned?_acquire handle
  have hnew : ∀ x, h.custody.owned? x ≠ some h.custody.managers :=
    fun x hx => (hk.valid.lt_of_owned hx).false
  refine ⟨hcustody ▸ hk.valid.step (.acquire handle), fun x => ?_, fun {x y manager} hx hy => ?_⟩
  · rw [howned, hopen, ← hk.owns]
    split <;> simp_all
  · rw [howned] at hx hy
    split at hx <;> split at hy
    · simp_all
    · cases hx
      exact absurd hy (hnew y)
    · cases hy
      exact absurd hx (hnew x)
    · exact hk.apart hx hy

/-- A handle that comes to own what another one owns is of its family. -/
theorem Kept.joined (hk : Kept h) (hother : h.isOpen other = true)
    (hfamily : handle.family = other.family)
    (hcustody : next.custody = h.custody.share handle other)
    (hopen : ∀ x, next.isOpen x = (decide (x = handle) || h.isOpen x)) : Kept next := by
  have howned : ∀ x, next.custody.owned? x =
      h.custody.owned? (if x = handle then other else x) := by
    intro x
    rw [hcustody, Custody.owned?_share, apply_ite h.custody.owned?]
  have hsame : ∀ x, (if x = handle then other else x).family = x.family := by
    intro x
    split <;> simp_all
  refine ⟨hcustody ▸ hk.valid.step (.share handle other), fun x => ?_,
    fun {x y manager} hx hy => ?_⟩
  · rw [howned, hopen, hk.owns]
    split <;> simp_all
  · rw [howned] at hx hy
    rw [← hsame x, ← hsame y]
    exact hk.apart hx hy

/-- A handle that comes to own what an export owned is alone with it, as the export was. -/
theorem Kept.moved (hk : Kept h) (hname : h.isOpen (.exported name) = true)
    (hne : handle ≠ .exported name)
    (hcustody : next.custody = h.custody.transfer handle (.exported name))
    (hopen : ∀ x, next.isOpen x =
      (decide (x ≠ .exported name) && (decide (x = handle) || h.isOpen x))) : Kept next := by
  have howned : ∀ x, next.custody.owned? x = if x = .exported name then none
      else h.custody.owned? (if x = handle then .exported name else x) := by
    intro x
    rw [hcustody, Custody.owned?_transfer, apply_ite h.custody.owned?]
  refine ⟨hcustody ▸ hk.valid.step (.transfer handle (.exported name)), fun x => ?_,
    fun {x y manager} hx hy => ?_⟩
  · rw [howned, hopen]
    split
    · simp_all
    · rw [hk.owns]
      split <;> simp_all
  · rw [howned] at hx hy
    split at hx
    · cases hx
    split at hy
    · cases hy
    split at hx <;> split at hy
    · simp_all
    · exact absurd (hk.eq_of_exported hx hy) ‹_›
    · exact absurd (hk.eq_of_exported hy hx) ‹_›
    · exact hk.apart hx hy

end

theorem Kept.effect (hk : Kept h) (heffect : Effect h next) : Kept next := by
  cases heffect with
  | kept hcustody hopen => exact hk.kept hcustody hopen
  | discarded hcustody hopen => exact hk.discarded hcustody hopen
  | closed handle hcustody hopen => exact hk.closed hcustody hopen
  | opened handle hcustody hopen => exact hk.opened hcustody hopen
  | joined handle other hother hfamily hcustody hopen =>
    exact hk.joined hother hfamily hcustody hopen
  | moved handle name hname hne hcustody hopen => exact hk.moved hname hne hcustody hopen

-- ---------------------------------------------------------------- a run

theorem Kept.run (hk : Kept h) (actions : List (Action σ)) : Kept (h.run actions) := by
  induction actions generalizing h with
  | nil => exact hk
  | cons action rest ih => exact ih (hk.effect (effect_after h action))

theorem kept_run (actions : List (Action σ)) : Kept ((Handles.empty : Handles σ).run actions) :=
  Kept.empty.run actions

theorem isReleased_run (hreleased : h.custody.IsReleased manager) (actions : List (Action σ)) :
    (h.run actions).custody.IsReleased manager := by
  induction actions generalizing h with
  | nil => exact hreleased
  | cons action rest ih => exact ih (hreleased.step (effect_after h action).step)

theorem Kept.released_le_run (hk : Kept h) (actions : List (Action σ)) :
    h.released ≤ (h.run actions).released := by
  induction actions generalizing h with
  | nil => exact le_rfl
  | cons action rest ih =>
    have heffect := effect_after h action
    exact (hk.valid.released_le_of_step heffect.step).trans (ih (hk.effect heffect))

/-- The ledger of a run knows the handles that are open. A manager that has been released stays
released whatever is done later, and when every handle is closed all managers have been released,
each of them once. -/
theorem managers_released (actions later : List (Action σ)) :
    let before := (Handles.empty : Handles σ).run actions
    let after := before.run later
    (∀ x, (after.custody.owned? x).isSome = after.isOpen x) ∧
    (∀ manager, before.custody.IsReleased manager → after.custody.IsReleased manager) ∧
    before.released ≤ after.released ∧
    after.released + after.custody.held.card = after.custody.managers ∧
    after.releasedAtEnd = after.custody.managers := by
  intro before after
  have hbefore : Kept before := kept_run actions
  have hafter : Kept after := hbefore.run later
  exact ⟨hafter.owns, fun _ h => isReleased_run h later, hbefore.released_le_run later,
    hafter.valid.released_add_held, after.custody.released_releaseAll⟩

-- ---------------------------------------------------------------- closing a handle

section
variable (action : Action σ) {other : Handle}

theorem custody_close (hclose : action.closes? = some handle) :
    (h.after action).custody = h.custody.release handle := by
  cases action <;> simp_all [Action.closes?] <;> subst hclose <;> rfl

/-- The last handle of its family to own a manager releases it when it is closed. -/
theorem Kept.released_last (hk : Kept h) (hclose : action.closes? = some handle)
    (howned : h.custody.owned? handle = some manager)
    (hlast : ∀ x, x.family = handle.family → h.custody.owned? x = some manager → x = handle) :
    (h.after action).released = h.released + 1 ∧ (h.after action).custody.IsReleased manager := by
  rw [Handles.released, custody_close action hclose]
  exact hk.valid.released_release_of_last howned fun x hx => hlast x (hk.apart hx howned) hx

/-- A manager that another handle owns too outlives the one that is closed. -/
theorem Kept.released_other (hk : Kept h) (hclose : action.closes? = some handle)
    (hne : other ≠ handle) (howned : h.custody.owned? handle = h.custody.owned? other) :
    (h.after action).released = h.released := by
  rw [Handles.released, custody_close action hclose]
  exact hk.valid.released_release_of_other hne howned

/-- Closing an export always releases its manager. -/
theorem Kept.released_closeExport (hk : Kept h) {name : String}
    (hopen : h.isOpen (.exported name) = true) :
    (h.closeExport name).released = h.released + 1 := by
  obtain ⟨manager, howned⟩ := Option.isSome_iff_exists.mp ((hk.owns _).trans hopen)
  exact (hk.released_last (.closeExport name) rfl howned fun x _ hx =>
    hk.eq_of_exported howned hx).1

end

end Handles

end EntityBroker.Boundary
