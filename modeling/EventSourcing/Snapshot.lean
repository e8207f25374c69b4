import EventSourcing.AggregateRoot

/-
Module: EventSourcing.Snapshot
Purpose: The snapshot handler.  `Save` detects whether the aggregate supplies its own
  `Marshal`/`Unmarshal` hooks, checks the root (`validate`), encodes the aggregate's fields
  into a `Snapshot` and hands it to the snapshot store; `Get` reads the snapshot stored
  under the ID and the aggregate's type name back into the aggregate and sets the root's
  internals.
Trusted boundary: the snapshot store is a parameter with a state; the type name
  (reflection), the hooks and the serializer's `Marshal`/`Unmarshal` on the aggregate are
  parameters; the aggregate root is modelled from the spec (`EventSourcing.AggregateRoot`).
Main exports: Snapshot, Capability, SnapshotStore,
  SnapshotHandler, validate, SnapshotHandler.save, SnapshotHandler.get,
  validate_eq_ok, SnapshotHandler.save_eq, SnapshotHandler.save_refused,
  SnapshotHandler.get_save, SnapshotHandler.snapshot_round_trip
-/

namespace EventSourcing

/-!
[SRC unnamed/part_003:1-137].  A Go aggregate is a struct embedding `AggregateRoot`; the
handler reads its dynamic type's name, its root, and its own fields (those the serializer
or the hooks encode).  The type switch `i.(SnapshotAggregate[T])`, then `i.(Aggregate[T])`,
is the capability detection of spec §4.5.  `Get` writes into the aggregate it is given; the
model returns the aggregate after the call.
-/

/-- `Snapshot`: the state of an aggregate at a Version. -/
structure Snapshot where
  id : String
  typ : String
  state : Bytes
  version : Nat
  globalVersion : Nat
deriving DecidableEq, Repr

/-- The hooks of a `SnapshotAggregate`, each already given the serializer's function it
receives (`Marshal(m MarshalSnapshotFunc)`, `Unmarshal(m UnmarshalSnapshotFunc, b)`). -/
structure SnapshotHooks (σ : Type) where
  marshal : σ → Except Error Bytes
  unmarshal : Bytes → σ → Except Error σ

/-- What the type switch finds: a `SnapshotAggregate` with its hooks, a plain `Aggregate`,
or a value that is neither. -/
inductive Capability (σ : Type) where
  | snapshotAggregate (hooks : SnapshotHooks σ)
  | aggregate
  | notAnAggregate

/-- `SnapshotStore`, with the state `ω` it keeps: `Get(ctx, id, type)` and `Save(snapshot)`. -/
structure SnapshotStore (ω : Type) where
  get : ω → Context → String → String → Except Error Snapshot
  save : ω → Snapshot → Except Error Unit × ω

/-- `SnapshotHandler[T]`: the snapshot store, and the serializer's `Marshal` and `Unmarshal`
applied to an aggregate's fields. -/
structure SnapshotHandler (ω σ : Type) where
  snapshotStore : SnapshotStore ω
  marshal : σ → Except Error Bytes
  unmarshal : Bytes → σ → Except Error σ

variable {ω σ α μ : Type}

/-- `validate`: an aggregate is saved in a snapshot only with an identity and with no
unsaved events. -/
def validate (root : AggregateRoot α μ) : Except Error Unit :=
  if root.aggregateID = "" then .error .emptyID
  else if root.unsavedEvents then .error .unsavedEvents
  else .ok ()

/-- The snapshot of an aggregate whose fields are encoded as `state`. -/
def Aggregate.snapshot (a : Aggregate σ α μ) (state : Bytes) : Snapshot :=
  ⟨a.root.aggregateID, a.typeName, state, a.root.aggregateVersion,
    a.root.aggregateGlobalVersion⟩

namespace SnapshotHandler

/-- The body `saveSnapshotAggregate` and `saveAggregate` share, with the encoder each uses:
validate the root, encode the fields, and save the snapshot. -/
def saveWith (h : SnapshotHandler ω σ) (store : ω) (marshal : σ → Except Error Bytes)
    (sa : Aggregate σ α μ) : Except Error Unit × ω :=
  match validate sa.root with
  | .error err => (.error err, store)
  | .ok () =>
    match marshal sa.fields with
    | .error err => (.error err, store)
    | .ok b => h.snapshotStore.save store (sa.snapshot b)

/-- `saveSnapshotAggregate`: the aggregate's own hook encodes it. -/
def saveSnapshotAggregate (h : SnapshotHandler ω σ) (store : ω) (hooks : SnapshotHooks σ)
    (sa : Aggregate σ α μ) : Except Error Unit × ω :=
  h.saveWith store hooks.marshal sa

/-- `saveAggregate`: the serializer encodes the aggregate. -/
def saveAggregate (h : SnapshotHandler ω σ) (store : ω) (sa : Aggregate σ α μ) :
    Except Error Unit × ω :=
  h.saveWith store h.marshal sa

/-- `SnapshotHandler.Save`. -/
def save (h : SnapshotHandler ω σ) (store : ω) (capability : Capability σ)
    (i : Aggregate σ α μ) : Except Error Unit × ω :=
  match capability with
  | .snapshotAggregate hooks => h.saveSnapshotAggregate store hooks i
  | .aggregate => h.saveAggregate store i
  | .notAnAggregate => (.error (.message "not an aggregate"), store)

/-- The decoder the type switch of `Get` picks, `none` for a value that is not an
aggregate. -/
def decoder (h : SnapshotHandler ω σ) : Capability σ → Option (Bytes → σ → Except Error σ)
  | .snapshotAggregate hooks => some hooks.unmarshal
  | .aggregate => some h.unmarshal
  | .notAnAggregate => none

/-- `SnapshotHandler.Get`: fetch the snapshot of `id` under the aggregate's type name,
decode it into the aggregate's fields, and set the root's internals from it. -/
def get (h : SnapshotHandler ω σ) (store : ω) (ctx : Context) (id : String)
    (capability : Capability σ) (i : Aggregate σ α μ) : Except Error (Aggregate σ α μ) :=
  match h.snapshotStore.get store ctx id i.typeName with
  | .error err => .error err
  | .ok snap =>
    match h.decoder capability with
    | none => .error (.message "not an aggregate")
    | some unmarshal =>
      match unmarshal snap.state i.fields with
      | .error err => .error err
      | .ok fields =>
        .ok { i with
          fields := fields
          root := i.root.setInternals snap.id snap.version snap.globalVersion }

end SnapshotHandler

/-! ### Save -/

/-- `validate` accepts exactly a root with an identity and an empty buffer. -/
theorem validate_eq_ok {root : AggregateRoot α μ} :
    validate root = .ok () ↔ root.aggregateID ≠ "" ∧ root.aggregateEvents = [] := by
  unfold validate AggregateRoot.unsavedEvents
  by_cases empty : root.aggregateID = "" <;> cases events : root.aggregateEvents <;>
    simp [empty, events]

namespace SnapshotHandler

/-- The encoder the type switch of `Save` picks. -/
def encoder (h : SnapshotHandler ω σ) : Capability σ → Option (σ → Except Error Bytes)
  | .snapshotAggregate hooks => some hooks.marshal
  | .aggregate => some h.marshal
  | .notAnAggregate => none

/-- **What `Save` does.**  For an aggregate, `Save` runs the shared body with the encoder
its capability selects. -/
theorem save_eq (h : SnapshotHandler ω σ) (store : ω) {capability : Capability σ}
    {marshal : σ → Except Error Bytes} (encodes : h.encoder capability = some marshal)
    (i : Aggregate σ α μ) :
    h.save store capability i = h.saveWith store marshal i := by
  cases capability <;> cases encodes <;> rfl

/-- The shared body succeeds exactly when the root is valid, the fields encode, and the
store saves the snapshot of the encoded fields. -/
theorem saveWith_eq_ok (h : SnapshotHandler ω σ) (store store' : ω)
    (marshal : σ → Except Error Bytes) (i : Aggregate σ α μ) :
    h.saveWith store marshal i = (.ok (), store') ↔
      validate i.root = .ok () ∧
        ∃ b, marshal i.fields = .ok b ∧ h.snapshotStore.save store (i.snapshot b) = (.ok (), store') := by
  unfold saveWith
  rcases validate i.root with err | ⟨⟩ <;> rcases marshal i.fields with err' | b <;> simp

/-- A root without identity is refused with `ErrEmptyID`, and one with unsaved events with
`ErrUnsavedEvents`, before anything is encoded; the store is not written. -/
theorem save_refused (h : SnapshotHandler ω σ) (store : ω) {capability : Capability σ}
    {marshal : σ → Except Error Bytes} (encodes : h.encoder capability = some marshal)
    (i : Aggregate σ α μ) :
    (i.root.aggregateID = "" → h.save store capability i = (.error .emptyID, store)) ∧
      (i.root.aggregateID ≠ "" → i.root.aggregateEvents ≠ [] →
        h.save store capability i = (.error .unsavedEvents, store)) := by
  rw [save_eq h store encodes]
  refine ⟨fun empty => by simp [saveWith, validate, empty], fun named pending => ?_⟩
  simp [saveWith, validate, AggregateRoot.unsavedEvents, named, List.isEmpty_iff, pending]

/-! ### Get -/

/-- **Saving then getting a snapshot.**  Where the store gives back the snapshot it saved,
and the decoder of the aggregate's capability inverts its encoder on the saved fields,
`Get` after a successful `Save` of `a` turns any aggregate of the same type name into one
with `a`'s fields and with `a`'s identity, Version and GlobalVersion in its root. -/
theorem get_save (h : SnapshotHandler ω σ) (store : ω) (ctx : Context)
    {capability : Capability σ} {marshal : σ → Except Error Bytes}
    {unmarshal : Bytes → σ → Except Error σ} (encodes : h.encoder capability = some marshal)
    (decodes : h.decoder capability = some unmarshal)
    (a template : Aggregate σ α μ) (sameType : template.typeName = a.typeName)
    (inverts : ∀ b, marshal a.fields = .ok b → unmarshal b template.fields = .ok a.fields)
    (returnsSaved : ∀ store' snapshot, h.snapshotStore.save store snapshot = (.ok (), store') →
      h.snapshotStore.get store' ctx snapshot.id snapshot.typ = .ok snapshot)
    (saved : (h.save store capability a).1 = .ok ()) :
    h.get (h.save store capability a).2 ctx a.root.aggregateID capability template =
      .ok { template with
        fields := a.fields
        root := template.root.setInternals a.root.aggregateID a.root.aggregateVersion
          a.root.aggregateGlobalVersion } := by
  rcases stored : h.save store capability a with ⟨result, store'⟩
  rw [stored] at saved
  cases saved
  rw [save_eq h store encodes, saveWith_eq_ok] at stored
  obtain ⟨-, b, encoded, stored⟩ := stored
  have fetched := returnsSaved store' _ stored
  simp only [Aggregate.snapshot] at fetched
  simp [get, sameType, fetched, decodes, inverts b encoded]

/-- **The snapshot round trip, for both capabilities.**  Take an aggregate `a` whose
capability picks an encoder and a decoder (its own hooks, or the serializer's), a store
that saves a snapshot and then gives it back under its ID and type name, and a decoder that
turns the bytes of `a`'s fields back into them over the fields of `b`, of `a`'s type.  A
valid `a` is saved, and `Get` then gives `b` `a`'s fields and sets `a`'s identity, Version
and GlobalVersion in its root.  An `a` without identity or with unsaved events is refused
with `ErrEmptyID` (checked first) or `ErrUnsavedEvents`, and the store is not written. -/
theorem snapshot_round_trip (h : SnapshotHandler ω σ) (store : ω) (ctx : Context)
    {capability : Capability σ} {marshal : σ → Except Error Bytes}
    {unmarshal : Bytes → σ → Except Error σ} (encodes : h.encoder capability = some marshal)
    (decodes : h.decoder capability = some unmarshal) (a b : Aggregate σ α μ) :
    ((∀ snapshot, ∃ store', h.snapshotStore.save store snapshot = (.ok (), store') ∧
        h.snapshotStore.get store' ctx snapshot.id snapshot.typ = .ok snapshot) →
      (∃ bytes, marshal a.fields = .ok bytes ∧ unmarshal bytes b.fields = .ok a.fields) →
      b.typeName = a.typeName → a.root.aggregateID ≠ "" → a.root.aggregateEvents = [] →
      (h.save store capability a).1 = .ok () ∧
        h.get (h.save store capability a).2 ctx a.root.aggregateID capability b =
          .ok { b with
            fields := a.fields
            root := b.root.setInternals a.root.aggregateID a.root.aggregateVersion
              a.root.aggregateGlobalVersion }) ∧
    (a.root.aggregateID = "" ∨ a.root.aggregateEvents ≠ [] →
      h.save store capability a =
        (.error (if a.root.aggregateID = "" then .emptyID else .unsavedEvents), store)) := by
  obtain ⟨unnamed, pending⟩ := save_refused h store encodes a
  refine ⟨fun storeLaw ⟨bytes, encoded, decoded⟩ sameType named empty => ?_, fun refused => ?_⟩
  · obtain ⟨store', stored, -⟩ := storeLaw (a.snapshot bytes)
    have saved : h.save store capability a = (.ok (), store') := by
      rw [save_eq h store encodes, saveWith_eq_ok]
      exact ⟨validate_eq_ok.mpr ⟨named, empty⟩, bytes, encoded, stored⟩
    refine ⟨by rw [saved], get_save h store ctx encodes decodes a b sameType
      (fun _ encoded' => Except.ok.inj (encoded.symm.trans encoded') ▸ decoded) ?_ (by rw [saved])⟩
    intro _ snapshot stored'
    obtain ⟨_, stored, fetched⟩ := storeLaw snapshot
    cases stored.symm.trans stored'
    exact fetched
  · by_cases noID : a.root.aggregateID = ""
    · rw [if_pos noID, unnamed noID]
    · rw [if_neg noID, pending noID (refused.resolve_left noID)]

/-- The round trip at a store that keeps the last snapshot, with a serializer that writes
the fields' bytes as they are and hooks that write them behind a leading `0`: an aggregate at
Version 3 is saved and read back into a fresh one under either capability (each decoder
inverts its own encoder only), and one without identity is refused. -/
theorem snapshot_round_trip_last :
    let store : SnapshotStore (Option Snapshot) :=
      ⟨fun last _ id typ => match last with
        | some snap =>
          if snap.id = id ∧ snap.typ = typ then .ok snap else .error (.message "no snapshot")
        | none => .error (.message "no snapshot"),
        fun _ snap => (.ok (), some snap)⟩
    let h : SnapshotHandler (Option Snapshot) Bytes := ⟨store, Except.ok, fun bytes _ => .ok bytes⟩
    let hooks : SnapshotHooks Bytes := ⟨fun fields => .ok (0 :: fields), fun bytes _ => .ok bytes.tail⟩
    let a : Aggregate Bytes PersonEvent Unit := ⟨"Person", [7], ⟨"p", 3, 5, []⟩⟩
    let b : Aggregate Bytes PersonEvent Unit := ⟨"Person", [], ⟨"", 0, 0, []⟩⟩
    ((h.save none .aggregate a).1 = .ok () ∧
        h.get (h.save none .aggregate a).2 Context.background "p" .aggregate b = .ok a) ∧
      ((h.save none (.snapshotAggregate hooks) a).1 = .ok () ∧
        h.get (h.save none (.snapshotAggregate hooks) a).2 Context.background "p"
          (.snapshotAggregate hooks) b = .ok a) ∧
      h.save none .aggregate b = (.error .emptyID, none) := by
  intro store h hooks a b
  have storeLaw : ∀ snapshot, ∃ store', h.snapshotStore.save none snapshot = (.ok (), store') ∧
      h.snapshotStore.get store' Context.background snapshot.id snapshot.typ = .ok snapshot :=
    fun snapshot => ⟨some snapshot, rfl, by simp [h, store]⟩
  exact ⟨(snapshot_round_trip h none Context.background
      (show h.encoder .aggregate = some h.marshal from rfl) rfl a b).1
      storeLaw ⟨[7], rfl, rfl⟩ rfl (by decide) rfl,
    (snapshot_round_trip h none Context.background
      (show h.encoder (.snapshotAggregate hooks) = some hooks.marshal from rfl) rfl a b).1
      storeLaw ⟨[0, 7], rfl, rfl⟩ rfl (by decide) rfl,
    (snapshot_round_trip h none Context.background
      (show h.encoder .aggregate = some h.marshal from rfl) rfl b b).2 (.inl rfl)⟩

end SnapshotHandler

end EventSourcing
