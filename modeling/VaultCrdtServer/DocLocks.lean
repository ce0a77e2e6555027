import VaultCrdtServer.Foundation.Totals

/-!
# Locks by key

`DocLocks` in `src/lib.rs` hands out reference-counted locks and forgets the
ones nobody else refers to.  Tasks may get, take, wait for, give up, release and
drop them in any order.  No lock in use is forgotten, so there is one lock for a
key at a time.
-/

namespace VaultCrdtServer

/-- `tokio::sync::Mutex`, by the handles that hold it and wait for it. -/
structure AsyncMutex where
  holder : Option Nat
  /-- In the order of their arrival. -/
  waiting : List Nat

namespace AsyncMutex

/-- `Mutex::new` -/
def new : AsyncMutex := ⟨none, []⟩

/-- `Mutex::lock` -/
def lock (handle : Nat) (mutex : AsyncMutex) : AsyncMutex :=
  match mutex.holder with
  | none => { mutex with holder := some handle }
  | some _ => { mutex with waiting := mutex.waiting ++ [handle] }

/-- A future of `Mutex::lock` is dropped. -/
def cancel (handle : Nat) (mutex : AsyncMutex) : AsyncMutex :=
  { mutex with waiting := mutex.waiting.erase handle }

/-- A guard is dropped: the lock passes to the first who waits. -/
def unlock (mutex : AsyncMutex) : AsyncMutex :=
  match mutex.waiting with
  | [] => ⟨none, []⟩
  | next :: rest => ⟨some next, rest⟩

/-- The handle holds the lock or waits for it. -/
def Engages (mutex : AsyncMutex) (handle : Nat) : Prop :=
  mutex.holder = some handle ∨ handle ∈ mutex.waiting

instance (mutex : AsyncMutex) (handle : Nat) : Decidable (mutex.Engages handle) :=
  inferInstanceAs (Decidable (_ ∨ _))

end AsyncMutex

/-- What an `Arc` points to, with its strong count. -/
structure LockArc where
  strong : Nat
  mutex : AsyncMutex

/-- A clone of an `Arc` that `DocLocks::get` has returned. -/
structure LockHandle where
  task : Nat
  key : String
  arc : Nat

/-- `DocLocks`, the locks it has allocated and the handles to them. -/
structure DocLocks where
  locks : Table String Nat
  arcs : Nat → LockArc
  nextArc : Nat
  handles : Table Nat LockHandle
  nextHandle : Nat

namespace DocLocks

/-- `DocLocks::default` -/
def new : DocLocks := ⟨∅, fun _ => ⟨0, .new⟩, 0, ∅, 0⟩

/-- `Arc::clone` -/
def cloneArc (arcs : Nat → LockArc) (arc : Nat) : Nat → LockArc :=
  Function.update arcs arc { arcs arc with strong := (arcs arc).strong + 1 }

/-- An `Arc` is dropped. -/
def dropArc (arcs : Nat → LockArc) (arc : Nat) : Nat → LockArc :=
  Function.update arcs arc { arcs arc with strong := (arcs arc).strong - 1 }

/-- What `DocLocks::get` forgets: the locks only the map refers to. -/
def unused (state : DocLocks) (arc : Nat) : Bool := !decide (1 < (state.arcs arc).strong)

/-- `HashMap::retain`, in `DocLocks::get`. -/
def evict (state : DocLocks) : DocLocks :=
  { state with
    locks := state.locks.deleteWhere fun _ arc => state.unused arc
    arcs := ((state.locks.entries.filter fun entry => state.unused entry.2).map
      fun entry => entry.2).foldl dropArc state.arcs }

/-- `Entry::or_insert_with`, in `DocLocks::get`. -/
def orInsert (state : DocLocks) (key : String) : Nat × DocLocks :=
  match state.locks.lookup key with
  | some arc => (arc, state)
  | none =>
      (state.nextArc,
        { state with
          locks := state.locks.insert key state.nextArc
          arcs := Function.update state.arcs state.nextArc ⟨1, .new⟩
          nextArc := state.nextArc + 1 })

/-- `DocLocks::get`, by a task, which is given the next handle. -/
def get (state : DocLocks) (task : Nat) (key : String) : DocLocks :=
  let (arc, state) := state.evict.orInsert key
  { state with
    arcs := cloneArc state.arcs arc
    handles := state.handles.insert state.nextHandle ⟨task, key, arc⟩
    nextHandle := state.nextHandle + 1 }

/-- Change the mutex of an `Arc`. -/
def onMutex (state : DocLocks) (arc : Nat) (change : AsyncMutex → AsyncMutex) : DocLocks :=
  { state with
    arcs := Function.update state.arcs arc
      { state.arcs arc with mutex := change (state.arcs arc).mutex } }

/-- What tasks do. -/
inductive Event where
  | get (task : Nat) (key : String)
  | lock (handle : Nat)
  | cancel (handle : Nat)
  | unlock (handle : Nat)
  | drop (handle : Nat)

/-- The mutex a handle refers to. -/
def mutexOf (state : DocLocks) (handle : LockHandle) : AsyncMutex :=
  (state.arcs handle.arc).mutex

/-- An event, where it can happen.  A handle is borrowed while its lock is held or
waited for, so it is neither dropped nor used again. -/
def step : Event → DocLocks → Option DocLocks
  | .get task key, state => some (state.get task key)
  | .lock id, state =>
      (state.handles.lookup id).bind fun handle =>
        if (state.mutexOf handle).Engages id then none
        else some (state.onMutex handle.arc (.lock id))
  | .cancel id, state =>
      (state.handles.lookup id).bind fun handle =>
        if id ∈ (state.mutexOf handle).waiting then
          some (state.onMutex handle.arc (.cancel id))
        else none
  | .unlock id, state =>
      (state.handles.lookup id).bind fun handle =>
        if (state.mutexOf handle).holder = some id then
          some (state.onMutex handle.arc .unlock)
        else none
  | .drop id, state =>
      (state.handles.lookup id).bind fun handle =>
        if (state.mutexOf handle).Engages id then none
        else some
          { state with
            arcs := dropArc state.arcs handle.arc
            handles := state.handles.erase id }

/-- Events, one after the other. -/
def run : List Event → DocLocks → Option DocLocks
  | [], state => some state
  | event :: rest, state => (step event state).bind (run rest)

/-- The task holds the lock of the key. -/
def Holds (state : DocLocks) (task : Nat) (key : String) : Prop :=
  ∃ id arc, state.handles.lookup id = some ⟨task, key, arc⟩ ∧
    (state.arcs arc).mutex.holder = some id

/-- Some task holds the lock, waits for it or has a handle to it. -/
def InUse (state : DocLocks) (arc : Nat) : Prop :=
  (∃ id, (state.arcs arc).mutex.Engages id) ∨
    ∃ id handle, state.handles.lookup id = some handle ∧ handle.arc = arc

/-! ## Invariant -/

/-- How many entries of the map refer to an `Arc`. -/
def entriesOf (state : DocLocks) (arc : Nat) : Nat :=
  state.locks.total fun _ other => if other = arc then 1 else 0

/-- How many handles refer to an `Arc`. -/
def handlesOf (state : DocLocks) (arc : Nat) : Nat :=
  state.handles.total fun _ handle => if handle.arc = arc then 1 else 0

/-- The strong counts count, and a handle refers to the lock of its key. -/
structure Valid (state : DocLocks) : Prop where
  counted : ∀ arc, (state.arcs arc).strong = state.entriesOf arc + state.handlesOf arc
  current : ∀ id handle, state.handles.lookup id = some handle →
    state.locks.lookup handle.key = some handle.arc
  engaged : ∀ arc id, (state.arcs arc).mutex.Engages id →
    ∃ handle, state.handles.lookup id = some handle ∧ handle.arc = arc
  allocated : ∀ key arc, state.locks.lookup key = some arc → arc < state.nextArc
  given : ∀ id, state.nextHandle ≤ id → state.handles.lookup id = none

variable {state : DocLocks}

theorem new_valid : new.Valid where
  counted := fun _ => rfl
  current := nofun
  engaged := by
    rintro arc id (holds | waits)
    · cases holds
    · cases waits
  allocated := nofun
  given := fun _ _ => rfl

/-- A handle is counted. -/
theorem handlesOf_pos
    {id : Nat}
    {handle : LockHandle}
    (held : state.handles.lookup id = some handle) :
    0 < state.handlesOf handle.arc := by
  unfold handlesOf
  rw [Table.total_of_lookup _ held, if_pos rfl]
  exact Nat.add_pos_left Nat.one_pos _

/-- So is an entry. -/
theorem entriesOf_pos
    {key : String}
    {arc : Nat}
    (entered : state.locks.lookup key = some arc) :
    0 < state.entriesOf arc := by
  unfold entriesOf
  rw [Table.total_of_lookup _ entered, if_pos rfl]
  exact Nat.add_pos_left Nat.one_pos _

/-- What is in use has a handle. -/
theorem Valid.handle_of_inUse
    (valid : state.Valid)
    {arc : Nat}
    (inUse : state.InUse arc) :
    ∃ id handle, state.handles.lookup id = some handle ∧ handle.arc = arc := by
  rcases inUse with ⟨id, engages⟩ | handled
  · exact ⟨id, valid.engaged arc id engages⟩
  · exact handled

/-- An entry that is in use is not taken for unused. -/
theorem Valid.not_unused
    (valid : state.Valid)
    {key : String}
    {arc : Nat}
    (entered : state.locks.lookup key = some arc)
    (inUse : state.InUse arc) :
    state.unused arc = false := by
  obtain ⟨id, handle, held, rfl⟩ := valid.handle_of_inUse inUse
  have entry := entriesOf_pos entered
  have handles := handlesOf_pos held
  have counted := valid.counted handle.arc
  simp only [unused, Bool.not_eq_false', decide_eq_true_eq]
  omega

/-! ## Forgetting -/

theorem lookup_evict (key : String) :
    state.evict.locks.lookup key =
      (state.locks.lookup key).filter fun arc => !state.unused arc :=
  Table.lookup_deleteWhere ..

theorem foldl_dropArc (dropped : List Nat) (arcs : Nat → LockArc) (arc : Nat) :
    dropped.foldl dropArc arcs arc =
      { arcs arc with strong := (arcs arc).strong - dropped.count arc } := by
  induction dropped generalizing arcs with
  | nil => rfl
  | cons first rest inductionHypothesis =>
      rw [List.foldl_cons, inductionHypothesis]
      by_cases same : arc = first
      · subst same
        simp only [dropArc, Function.update_self, List.count_cons_self]
        rw [Nat.sub_sub, Nat.add_comm 1]
      · rw [List.count_cons_of_ne (Ne.symm same)]
        simp only [dropArc, Function.update_of_ne same]

theorem arcs_evict (arc : Nat) :
    state.evict.arcs arc = { state.arcs arc with
      strong := (state.arcs arc).strong -
        ((state.locks.entries.filter fun entry => state.unused entry.2).map
          fun entry => entry.2).count arc } :=
  foldl_dropArc ..

/-- Every entry that is forgotten takes its reference with it. -/
theorem entriesOf_evict (arc : Nat) :
    state.entriesOf arc = state.evict.entriesOf arc +
      ((state.locks.entries.filter fun entry => state.unused entry.2).map
        fun entry => entry.2).count arc := by
  have counts : ∀ entries : List (Sigma fun _ : String => Nat),
      (entries.map fun entry => if entry.2 = arc then 1 else 0).sum =
        (entries.map fun entry => entry.2).count arc := by
    intro entries
    induction entries with
    | nil => rfl
    | cons entry rest inductionHypothesis =>
        rw [List.map_cons, List.sum_cons, inductionHypothesis, List.map_cons, List.count_cons]
        simp [Nat.add_comm]
  unfold entriesOf
  rw [Table.total_deleteWhere _ fun _ arc => state.unused arc, counts]
  rfl

/-- No lock in use is forgotten. -/
theorem Valid.lookup_evict_of_inUse
    (valid : state.Valid)
    {key : String}
    {arc : Nat}
    (entered : state.locks.lookup key = some arc)
    (inUse : state.InUse arc) :
    state.evict.locks.lookup key = some arc := by
  rw [lookup_evict, entered]
  simp [valid.not_unused entered inUse]

theorem Valid.evict (valid : state.Valid) : state.evict.Valid where
  counted := by
    intro arc
    have entries := @entriesOf_evict state arc
    have counted := valid.counted arc
    have handles : state.evict.handlesOf arc = state.handlesOf arc := rfl
    rw [arcs_evict, handles]
    dsimp only
    omega
  current := fun id handle held =>
    valid.lookup_evict_of_inUse (valid.current id handle held) (.inr ⟨id, handle, held, rfl⟩)
  engaged := by
    intro arc id engages
    rw [arcs_evict] at engages
    exact valid.engaged arc id engages
  allocated := by
    intro key arc entered
    rw [lookup_evict] at entered
    exact valid.allocated key arc (Option.filter_eq_some_iff.mp entered).1
  given := valid.given

/-! ## Getting -/

/-- Only locks that have been allocated are referred to. -/
theorem Valid.references_nextArc (valid : state.Valid) :
    state.entriesOf state.nextArc = 0 ∧ state.handlesOf state.nextArc = 0 := by
  refine ⟨?_, ?_⟩
  · have none' : state.entriesOf state.nextArc = state.locks.total fun _ _ => 0 := by
      refine Table.total_congr ?_
      intro key arc entered
      exact if_neg (Nat.ne_of_lt (valid.allocated key arc entered))
    rw [none']
    simp [Table.total]
  · have none' : state.handlesOf state.nextArc = state.handles.total fun _ _ => 0 := by
      refine Table.total_congr ?_
      intro id handle held
      exact if_neg (Nat.ne_of_lt (valid.allocated _ _ (valid.current id handle held)))
    rw [none']
    simp [Table.total]

/-- There is an entry after it has been inserted, and the others stay. -/
theorem lookup_orInsert (key key' : String) :
    (state.orInsert key').2.locks.lookup key =
      if key = key' then some (state.orInsert key').1 else state.locks.lookup key := by
  unfold orInsert
  cases found : state.locks.lookup key' with
  | some arc =>
      dsimp only
      split
      · rename_i same
        rw [same, found]
      · rfl
  | none => exact Table.lookup_insert_eq_ite ..

theorem lookup_orInsert_of_entered
    {key : String}
    {arc : Nat}
    (entered : state.locks.lookup key = some arc)
    (key' : String) :
    (state.orInsert key').2.locks.lookup key = some arc := by
  rw [lookup_orInsert]
  split
  · rename_i same
    subst same
    unfold orInsert
    rw [entered]
  · exact entered

theorem Valid.orInsert
    (valid : state.Valid)
    (key : String) :
    (state.orInsert key).2.Valid := by
  unfold DocLocks.orInsert
  cases absent : state.locks.lookup key with
  | some arc => exact valid
  | none =>
      obtain ⟨entries, handles⟩ := valid.references_nextArc
      exact
        { counted := by
            intro arc
            have inserted : DocLocks.entriesOf { state with
                locks := state.locks.insert key state.nextArc
                arcs := Function.update state.arcs state.nextArc ⟨1, .new⟩
                nextArc := state.nextArc + 1 } arc =
                (if state.nextArc = arc then 1 else 0) + state.entriesOf arc :=
              Table.total_insert_of_lookup_eq_none _ _ absent
            rw [inserted]
            by_cases fresh : arc = state.nextArc
            · subst fresh
              rw [if_pos rfl, entries]
              dsimp only
              rw [Function.update_self]
              exact handles.symm ▸ rfl
            · rw [if_neg (Ne.symm fresh), Nat.zero_add]
              dsimp only
              rw [Function.update_of_ne fresh]
              exact valid.counted arc
          current := by
            intro id handle held
            have entered := valid.current id handle held
            have other : handle.key ≠ key := by
              rintro rfl
              rw [absent] at entered
              cases entered
            exact (AList.lookup_insert_ne other).trans entered
          engaged := by
            intro arc id engages
            by_cases fresh : arc = state.nextArc
            · subst fresh
              dsimp only at engages
              rw [Function.update_self] at engages
              rcases engages with holds | waits
              · cases holds
              · cases waits
            · dsimp only at engages
              rw [Function.update_of_ne fresh] at engages
              exact valid.engaged arc id engages
          allocated := by
            intro key' arc entered
            dsimp only at entered ⊢
            rw [Table.lookup_insert_eq_ite] at entered
            split at entered
            · rw [← Option.some.inj entered]
              exact Nat.lt_succ_self _
            · exact (valid.allocated key' arc entered).trans (Nat.lt_succ_self _)
          given := valid.given }

/-- A clone of an entry's lock becomes a handle. -/
theorem Valid.clone
    (valid : state.Valid)
    (task : Nat)
    {key : String}
    {arc : Nat}
    (entered : state.locks.lookup key = some arc) :
    Valid { state with
      arcs := cloneArc state.arcs arc
      handles := state.handles.insert state.nextHandle ⟨task, key, arc⟩
      nextHandle := state.nextHandle + 1 } where
  counted := by
    intro other
    have inserted : DocLocks.handlesOf { state with
        arcs := cloneArc state.arcs arc
        handles := state.handles.insert state.nextHandle ⟨task, key, arc⟩
        nextHandle := state.nextHandle + 1 } other =
        (if arc = other then 1 else 0) + state.handlesOf other :=
      Table.total_insert_of_lookup_eq_none _ _ (valid.given _ (Nat.le_refl _))
    have counted := valid.counted other
    rw [inserted]
    unfold cloneArc
    dsimp only
    by_cases same : other = arc
    · subst same
      rw [Function.update_self, if_pos rfl]
      change (state.arcs other).strong + 1 = state.entriesOf other + _
      omega
    · rw [Function.update_of_ne same, if_neg (Ne.symm same), Nat.zero_add]
      exact counted
  current := by
    intro id handle held
    dsimp only at held
    rw [Table.lookup_insert_eq_ite] at held
    split at held
    · rw [← Option.some.inj held]
      exact entered
    · exact valid.current id handle held
  engaged := by
    intro other id engages
    have before : (state.arcs other).mutex.Engages id := by
      unfold cloneArc at engages
      dsimp only at engages
      by_cases same : other = arc
      · subst same
        rwa [Function.update_self] at engages
      · rwa [Function.update_of_ne same] at engages
    obtain ⟨handle, held, refers⟩ := valid.engaged other id before
    have different : id ≠ state.nextHandle := by
      rintro rfl
      rw [valid.given _ (Nat.le_refl _)] at held
      cases held
    exact ⟨handle, (AList.lookup_insert_ne different).trans held, refers⟩
  allocated := valid.allocated
  given := by
    intro id after
    have different : id ≠ state.nextHandle := Nat.ne_of_gt after
    exact (AList.lookup_insert_ne different).trans (valid.given id (Nat.le_of_lt after))

theorem Valid.get
    (valid : state.Valid)
    (task : Nat)
    (key : String) :
    (state.get task key).Valid := by
  have entered := @lookup_orInsert state.evict key key
  rw [if_pos rfl] at entered
  exact (valid.evict.orInsert key).clone task entered

/-- Getting a lock forgets none in use. -/
theorem Valid.lookup_get_of_inUse
    (valid : state.Valid)
    {key : String}
    {arc : Nat}
    (entered : state.locks.lookup key = some arc)
    (inUse : state.InUse arc)
    (task : Nat)
    (key' : String) :
    (state.get task key').locks.lookup key = some arc :=
  lookup_orInsert_of_entered (valid.lookup_evict_of_inUse entered inUse) key'

/-! ## Locking -/

theorem Valid.onMutex
    (valid : state.Valid)
    {id : Nat}
    {handle : LockHandle}
    (held : state.handles.lookup id = some handle)
    {change : AsyncMutex → AsyncMutex}
    (engages : ∀ mutex other, (change mutex).Engages other → mutex.Engages other ∨ other = id) :
    (state.onMutex handle.arc change).Valid where
  counted := by
    intro arc
    have counted := valid.counted arc
    unfold DocLocks.onMutex
    dsimp only
    by_cases same : arc = handle.arc
    · subst same
      rw [Function.update_self]
      exact counted
    · rw [Function.update_of_ne same]
      exact counted
  current := valid.current
  engaged := by
    intro arc other after
    unfold DocLocks.onMutex at after
    dsimp only at after
    by_cases same : arc = handle.arc
    · subst same
      rw [Function.update_self] at after
      rcases engages _ other after with before | rfl
      · exact valid.engaged handle.arc other before
      · exact ⟨handle, held, rfl⟩
    · rw [Function.update_of_ne same] at after
      exact valid.engaged arc other after
  allocated := valid.allocated
  given := valid.given

theorem Valid.drop
    (valid : state.Valid)
    {id : Nat}
    {handle : LockHandle}
    (held : state.handles.lookup id = some handle)
    (idle : ¬ (state.mutexOf handle).Engages id) :
    Valid { state with
      arcs := dropArc state.arcs handle.arc
      handles := state.handles.erase id } where
  counted := by
    intro arc
    have before : state.handlesOf arc = (if handle.arc = arc then 1 else 0) +
        DocLocks.handlesOf { state with
          arcs := dropArc state.arcs handle.arc
          handles := state.handles.erase id } arc :=
      Table.total_of_lookup _ held
    have counted := valid.counted arc
    have entries : DocLocks.entriesOf { state with
        arcs := dropArc state.arcs handle.arc
        handles := state.handles.erase id } arc = state.entriesOf arc := rfl
    rw [before] at counted
    rw [entries]
    generalize DocLocks.handlesOf _ arc = others at counted ⊢
    unfold dropArc
    dsimp only
    by_cases same : arc = handle.arc
    · subst same
      rw [if_pos rfl] at counted
      rw [Function.update_self]
      dsimp only
      omega
    · rw [if_neg (Ne.symm same), Nat.zero_add] at counted
      rw [Function.update_of_ne same]
      exact counted
  current := by
    intro other handle' held'
    dsimp only at held'
    rw [Table.lookup_erase_eq_ite] at held'
    split at held'
    · cases held'
    · exact valid.current other handle' held'
  engaged := by
    intro arc other engages
    have before : (state.arcs arc).mutex.Engages other := by
      unfold dropArc at engages
      dsimp only at engages
      by_cases same : arc = handle.arc
      · subst same
        rwa [Function.update_self] at engages
      · rwa [Function.update_of_ne same] at engages
    obtain ⟨handle', held', rfl⟩ := valid.engaged arc other before
    have different : other ≠ id := by
      rintro rfl
      obtain rfl := Option.some.inj (held'.symm.trans held)
      exact idle before
    exact ⟨handle', (AList.lookup_erase_ne different).trans held', rfl⟩
  allocated := valid.allocated
  given := by
    intro other after
    dsimp only
    rw [Table.lookup_erase_eq_ite, valid.given other after, ite_self]

theorem Valid.step
    {state' : DocLocks}
    {event : Event}
    (valid : state.Valid)
    (happens : step event state = some state') :
    state'.Valid := by
  cases event with
  | get task key =>
      obtain rfl := Option.some.inj happens
      exact valid.get task key
  | lock id =>
      obtain ⟨handle, held, rest⟩ := Option.bind_eq_some_iff.mp happens
      split at rest
      · cases rest
      · obtain rfl := Option.some.inj rest
        refine valid.onMutex held ?_
        intro mutex other engages
        unfold AsyncMutex.lock AsyncMutex.Engages at *
        grind
  | cancel id =>
      obtain ⟨handle, held, rest⟩ := Option.bind_eq_some_iff.mp happens
      split at rest
      · obtain rfl := Option.some.inj rest
        refine valid.onMutex held ?_
        intro mutex other engages
        exact .inl (engages.imp_right List.mem_of_mem_erase)
      · cases rest
  | unlock id =>
      obtain ⟨handle, held, rest⟩ := Option.bind_eq_some_iff.mp happens
      split at rest
      · obtain rfl := Option.some.inj rest
        refine valid.onMutex held ?_
        intro mutex other engages
        unfold AsyncMutex.unlock AsyncMutex.Engages at *
        grind
      · cases rest
  | drop id =>
      obtain ⟨handle, held, rest⟩ := Option.bind_eq_some_iff.mp happens
      split at rest
      · cases rest
      · rename_i idle
        obtain rfl := Option.some.inj rest
        exact valid.drop held idle

theorem Valid.run
    {state' : DocLocks}
    {events : List Event}
    (valid : state.Valid)
    (happens : run events state = some state') :
    state'.Valid := by
  induction events generalizing state with
  | nil =>
      obtain rfl := Option.some.inj happens
      exact valid
  | cons event rest inductionHypothesis =>
      obtain ⟨next, first, later⟩ := Option.bind_eq_some_iff.mp happens
      exact inductionHypothesis (valid.step first) later

/-- The handles of a key share its lock. -/
theorem Valid.exclusive
    (valid : state.Valid)
    {task task' : Nat}
    {key : String}
    (holds : state.Holds task key)
    (holds' : state.Holds task' key) :
    task = task' := by
  obtain ⟨id, arc, held, holder⟩ := holds
  obtain ⟨id', arc', held', holder'⟩ := holds'
  have same : arc = arc' :=
    Option.some.inj ((valid.current id _ held).symm.trans (valid.current id' _ held'))
  subst same
  obtain rfl := Option.some.inj (holder.symm.trans holder')
  exact congrArg LockHandle.task (Option.some.inj (held.symm.trans held'))

end DocLocks

/-- No two tasks hold the lock of a key, and no lock in use is forgotten. -/
theorem doc_locks_exclusive
    {events : List DocLocks.Event}
    {state : DocLocks}
    (reached : DocLocks.run events .new = some state) :
    (∀ task task' key, state.Holds task key → state.Holds task' key → task = task') ∧
      ∀ key arc, state.locks.lookup key = some arc → state.InUse arc →
        ∀ task key', (state.get task key').locks.lookup key = some arc := by
  have valid := DocLocks.new_valid.run reached
  exact ⟨fun _ _ _ => valid.exclusive, fun _ _ => valid.lookup_get_of_inUse⟩

/-- A lock is passed on while another is taken and dropped. -/
theorem doc_locks_exclusive_passed :
    ∃ state, DocLocks.run
        [.get 1 "v:a", .get 2 "v:a", .get 2 "v:b", .lock 0, .lock 1, .unlock 0, .drop 0, .lock 2,
          .unlock 2, .drop 2] .new = some state ∧
      (∀ task, state.Holds task "v:a" → task = 2) ∧
      (state.get 3 "v:c").locks.lookup "v:a" = some 0 := by
  refine ⟨_, rfl, ?_⟩
  have exclusive := @doc_locks_exclusive
    [.get 1 "v:a", .get 2 "v:a", .get 2 "v:b", .lock 0, .lock 1, .unlock 0, .drop 0, .lock 2,
      .unlock 2, .drop 2] _ rfl
  refine ⟨?_, ?_⟩
  · intro task holds
    exact exclusive.1 task 2 "v:a" holds ⟨1, 0, rfl, rfl⟩
  · exact exclusive.2 "v:a" 0 rfl (.inl ⟨1, .inl rfl⟩) 3 "v:c"

end VaultCrdtServer
