import StreamTrace.Debugger.Readback
import StreamTrace.Proofs.Debugger.Target

/-!
# The commands of the bridge

Which commands the value bridge sends, whatever it is told. It makes and reads values, so it never
touches frames, event requests or the thread's progress. It has a class found or defined only for
a name that it has not resolved before; `Sends false` says that this does not happen.
-/

namespace StreamTrace

namespace Command

/-- The commands by which values are made and read. -/
def servesBridge : Command → Bool
  | classesBySignature _ => true
  | createString _ => true
  | typeSignature _ => true
  | typeLoader _ => true
  | typeMethods _ => true
  | typeInterfaces _ => true
  | superclass _ => true
  | invokeStatic _ _ _ _ _ => true
  | newInstance _ _ _ _ _ => true
  | newArray _ _ => true
  | reflectedType _ => true
  | objectType _ => true
  | invokeVirtual _ _ _ _ _ _ => true
  | disableCollection _ => true
  | stringValue _ => true
  | arrayLength _ => true
  | arrayValues _ _ _ => true
  | setArrayValues _ _ _ => true
  | _ => false

/-- Whether the command has the shape of a call of `Class.forName`, the only static method that is
called with three arguments, or of `ClassLoader.defineClass`, the only method that is called on an
object with four. -/
def findsClass : Command → Bool
  | invokeStatic _ _ _ args _ => args.length == 3
  | invokeVirtual _ _ _ _ args _ => args.length == 4
  | _ => false

/-- Whether the command keeps an object from collection. -/
def pins : Command → Bool
  | disableCollection _ => true
  | _ => false

end Command

/-- What a routine of the bridge needs of its target to send commands of a kind: they may be sent,
and `J` holds on, of what the bridge has asked for and pinned and of the target's record. An object
is pinned only if it is not among the pinned ones. Of a bridge that failed, only `E` has to hold. -/
structure Target.Hosts {τ : Type} (T : Target τ) (P : Command → Prop)
    (J E : BridgeState → τ → Prop) : Prop where
  asks : ∀ {s g c}, J s g → P c → c.pins = false → T.asks g (.command c)
  answers : ∀ {s g c} {r : c.Answer} {g'}, J s g → P c → c.pins = false →
    T.answers g (.command c) r g' → J s g'
  lists : ∀ {s g type methods g'}, J s g →
    T.answers g (.command (.typeMethods type))
      (.ok methods : Except JdwpError (List MethodInfo)) g' →
      J { s with methods := s.methods.set type methods } g'
  admits : ∀ {s g id}, J s g → P (.disableCollection id) → s.storage.admission id = .absent →
    T.asks g (.command (.disableCollection id))
  pins : ∀ {s g id g'} className, J s g → P (.disableCollection id) →
    s.storage.admission id = .absent →
    T.answers g (.command (.disableCollection id)) (.ok () : Except JdwpError Unit) g' →
      J { s with storage := s.storage.pin className id } g'
  refuses : ∀ {s g id e g'}, J s g → P (.disableCollection id) →
    s.storage.admission id = .absent →
    T.answers g (.command (.disableCollection id)) (.error e : Except JdwpError Unit) g' → E s g'
  fails : ∀ {s g}, J s g → E s g
  others : ∀ {s s' : BridgeState} {g}, s'.methods = s.methods → s'.storage = s.storage →
    J s g → J s' g

theorem Target.Hosts.weaken {τ : Type} {T : Target τ} {P P' : Command → Prop}
    {J E : BridgeState → τ → Prop} (h : T.Hosts P' J E) (hP : ∀ c, P c → P' c) :
    T.Hosts P J E where
  asks hg hc := h.asks hg (hP _ hc)
  answers hg hc := h.answers hg (hP _ hc)
  lists := h.lists
  admits hg hc := h.admits hg (hP _ hc)
  pins className hg hc := h.pins className hg (hP _ hc)
  refuses hg hc := h.refuses hg (hP _ hc)
  fails := h.fails
  others := h.others

namespace BridgeState

/-- The name was resolved before. -/
def Knows (s : BridgeState) (className : String) : Prop := (s.types.get? className).isSome

/-- What was resolved stays resolved. -/
def Remembers (s s' : BridgeState) : Prop := ∀ className, s.Knows className → s'.Knows className

theorem Remembers.refl (s : BridgeState) : s.Remembers s := fun _ h => h

theorem Remembers.trans {s s' s'' : BridgeState} (h : s.Remembers s') (h' : s'.Remembers s'') :
    s.Remembers s'' := fun _ hn => h' _ (h _ hn)

theorem remembers_set_types (s : BridgeState) (className : String) (type : TypeId) :
    s.Remembers { s with types := s.types.set className type } := by
  intro n hn
  unfold Knows at hn ⊢
  rw [Table.get?_set]
  split
  · rfl
  · exact hn

theorem knows_set_types (s : BridgeState) (className : String) (type : TypeId) :
    Knows { s with types := s.types.set className type } className := by
  simp [Knows]

end BridgeState

namespace BridgeRoutine

open Routine

/-- A command of the bridge, which may be one that finds a class if `find`. -/
def BridgeCommand (find : Bool) (c : Command) : Prop :=
  c.servesBridge = true ∧ (find = true ∨ c.findsClass = false)

/-- A command of the bridge that has no code of the debuggee run. -/
def BridgeQuery (c : Command) : Prop := c.servesBridge = true ∧ c.isInvocation = false

theorem BridgeQuery.bridgeCommand {find : Bool} {c : Command} (h : BridgeQuery c) :
    BridgeCommand find c := by
  refine ⟨h.1, .inr ?_⟩
  have hlook := h.2
  cases c <;> first | rfl | cases hlook

variable {α β : Type} {P : Command → Prop} {s : BridgeState}

/-- Started in `s`, the routine sends commands of a kind only, whatever its target makes of them,
and what it yields satisfies `post`. -/
structure Sends (P : Command → Prop) (t : BridgeRoutine α) (s : BridgeState)
    (post : α → BridgeState → Prop := fun _ _ => True) : Prop where
  meets : ∀ {τ : Type} {T : Target τ} {J E : BridgeState → τ → Prop} {g : τ}, T.Hosts P J E →
    J s g →
    t.Meets T (fun a s' g' => (s.Remembers s' ∧ post a s') ∧ J s' g')
      (fun _ s' g' => s.Remembers s' ∧ E s' g') s g

theorem Sends.weaken {t : BridgeRoutine α} {P' : Command → Prop}
    {post : α → BridgeState → Prop} (h : t.Sends P s post) (hP : ∀ c, P c → P' c) :
    t.Sends P' s post :=
  ⟨fun hT hg => h.meets (hT.weaken hP) hg⟩

theorem Sends.mono {t : BridgeRoutine α} {post post' : α → BridgeState → Prop}
    (h : t.Sends P s post) (hpost : ∀ a s', post a s' → post' a s') :
    t.Sends P s post' :=
  ⟨fun hT hg => Meets.mono (h.meets hT hg)
    (fun a s' _ h' => ⟨⟨h'.1.1, hpost a s' h'.1.2⟩, h'.2⟩) fun _ _ _ h' => h'⟩

theorem sends_pure {a : α} {post : α → BridgeState → Prop} (h : post a s) :
    Sends P (pure a : BridgeRoutine α) s post := by
  refine ⟨fun hT hg => ?_⟩
  rw [meets_pure]
  exact ⟨⟨.refl s, h⟩, hg⟩

theorem sends_throw {e : TraceError} {post : α → BridgeState → Prop} :
    Sends P (throw e : BridgeRoutine α) s post := by
  refine ⟨fun hT hg => ?_⟩
  rw [meets_throw]
  exact ⟨.refl s, hT.fails hg⟩

theorem Sends.bind {t : BridgeRoutine α} {f : α → BridgeRoutine β} {post : α → BridgeState → Prop}
    {post' : β → BridgeState → Prop} (h : t.Sends P s post)
    (hf : ∀ a s', s.Remembers s' → post a s' → (f a).Sends P s' post') :
    Sends P (t >>= f) s post' := by
  refine ⟨fun hT hg => ?_⟩
  rw [meets_bind]
  refine Meets.mono (h.meets hT hg) ?_ (fun _ _ _ h' => h')
  rintro a s' g' ⟨⟨hs, ha⟩, hg'⟩
  exact Meets.mono ((hf a s' hs ha).meets hT hg')
    (fun _ _ _ h' => ⟨⟨hs.trans h'.1.1, h'.1.2⟩, h'.2⟩)
    (fun _ _ _ h' => ⟨hs.trans h'.1, h'.2⟩)

theorem sends_ite {Q : Prop} [Decidable Q] {t e : BridgeRoutine α} {post : α → BridgeState → Prop}
    (ht : Q → t.Sends P s post) (he : ¬Q → e.Sends P s post) :
    Sends P (if Q then t else e) s post := by
  split
  · exact ht ‹_›
  · exact he ‹_›

theorem sends_get_bind {f : BridgeState → BridgeRoutine β} {post : β → BridgeState → Prop}
    (h : (f s).Sends P s post) : Sends P (get >>= f) s post := by
  refine ⟨fun hT hg => ?_⟩
  rw [meets_bind, meets_get]
  exact h.meets hT hg

theorem sends_modify {f : BridgeState → BridgeState} (h : s.Remembers (f s))
    (hmethods : (f s).methods = s.methods) (hstorage : (f s).storage = s.storage) :
    Sends P (modify f : BridgeRoutine PUnit) s fun _ s' => s' = f s := by
  refine ⟨fun hT hg => ?_⟩
  rw [meets_modify]
  exact ⟨⟨h, rfl⟩, hT.others hmethods hstorage hg⟩

theorem sends_commandOr {c : Command} {wrap : JdwpError → TraceError} (h : P c)
    (hpins : c.pins = false) : Sends P (commandOr c wrap) s := by
  refine ⟨fun hT hg => ?_⟩
  rw [meets_commandOr]
  exact ⟨hT.asks hg h hpins, fun _ _ hr => ⟨⟨.refl s, trivial⟩, hT.answers hg h hpins hr⟩,
    fun _ _ hr => ⟨.refl s, hT.fails (hT.answers hg h hpins hr)⟩⟩

theorem sends_command {c : Command} (h : P c) (hpins : c.pins = false) :
    Sends P (command c) s :=
  sends_commandOr h hpins

theorem sends_answer {c : Command} (h : P c) (hpins : c.pins = false) :
    Sends P (answer c) s := by
  refine ⟨fun hT hg => ?_⟩
  rw [meets_answer]
  exact ⟨hT.asks hg h hpins, fun _ _ hr => ⟨⟨.refl s, trivial⟩, hT.answers hg h hpins hr⟩⟩

/-- An object that is not pinned yet is pinned. -/
theorem sends_pin {className : String} {id : ObjectId} (h : P (.disableCollection id))
    (habsent : s.storage.admission id = .absent) :
    Sends P (do
      command (.disableCollection id)
      modify fun s => { s with storage := s.storage.pin className id } : BridgeRoutine Unit) s := by
  refine ⟨fun hT hg => ?_⟩
  refine meets_bind.mpr <| meets_commandOr.mpr ⟨hT.admits hg h habsent, fun _ _ hr => ?_,
    fun _ _ hr => ⟨.refl s, hT.refuses hg h habsent hr⟩⟩
  rw [meets_modify]
  exact ⟨⟨fun _ hn => hn, trivial⟩, hT.pins className hg h habsent hr⟩

/-- The methods of a type are asked for and noted. -/
theorem sends_list {type : TypeId} (h : P (.typeMethods type)) :
    Sends P (do
      let methods : List MethodInfo ← command (.typeMethods type)
      modify fun s => { s with methods := s.methods.set type methods }
      return methods : BridgeRoutine (List MethodInfo)) s
      fun methods s' => s'.methods.get? type = some methods := by
  refine ⟨fun hT hg => ?_⟩
  refine meets_bind.mpr <| meets_commandOr.mpr ⟨hT.asks hg h rfl,
    fun (methods : List MethodInfo) g' hr => ?_,
    fun _ _ hr => ⟨.refl s, hT.fails (hT.answers hg h rfl hr)⟩⟩
  rw [meets_bind, meets_modify, meets_pure]
  exact ⟨⟨fun _ hn => hn, by simp⟩, hT.lists hg hr⟩

theorem sends_mapError {t : BridgeRoutine α} {f : TraceError → TraceError}
    {post : α → BridgeState → Prop}
    (h : t.Sends P s post) : Sends P (mapError f t) s post := by
  refine ⟨fun hT hg => ?_⟩
  rw [meets_mapError]
  exact h.meets hT hg

end BridgeRoutine

namespace Bridge

open Routine BridgeRoutine

variable {find : Bool} {s : BridgeState}

/-! ## Pins, types and methods -/

theorem store_bridgeQuery (className : String) (v : Value) :
    (store className v).Sends BridgeQuery s := by
  unfold store
  split
  · exact sends_pure trivial
  · refine sends_get_bind ?_
    split
    · exact sends_throw
    · exact sends_pure trivial
    · exact sends_pin ⟨rfl, rfl⟩ ‹_›

theorem store_sends (className : String) (v : Value) :
    (store className v).Sends (BridgeCommand find) s :=
  (store_bridgeQuery className v).weaken fun _ => BridgeQuery.bridgeCommand

theorem methodsOf_sends (type : TypeId) :
    (methodsOf type).Sends (BridgeCommand find) s
      fun methods s' => s'.methods.get? type = some methods := by
  unfold methodsOf
  refine sends_get_bind ?_
  split
  · exact sends_pure ‹_›
  · exact sends_list ⟨rfl, .inr rfl⟩

theorem supertypes_sends (type : TypeId) : (supertypes type).Sends (BridgeCommand find) s := by
  unfold supertypes
  refine (sends_answer ⟨rfl, .inr rfl⟩ rfl).bind fun r _ _ _ => ?_
  rcases r with e | superclass
  · cases e with
    | vm code => exact (sends_command ⟨rfl, .inr rfl⟩ rfl).bind fun _ _ _ _ => sends_pure trivial
    | _ => exact sends_throw
  · exact (sends_command ⟨rfl, .inr rfl⟩ rfl).bind fun _ _ _ _ => sends_pure trivial

theorem searchTypes_sends {α : Type} {look : TypeId → BridgeRoutine (Option α)}
    (found : α → BridgeState → Prop)
    (hlook : ∀ type s, (look type).Sends (BridgeCommand find) s
      fun r s' => ∀ a, r = some a → found a s')
    (fuel : Nat) (seen queue : List TypeId) :
    (searchTypes look fuel seen queue).Sends (BridgeCommand find) s
      fun r s' => ∀ a, r = some a → found a s' := by
  induction fuel generalizing seen queue s with
  | zero => exact sends_pure (by simp)
  | succ fuel ih =>
      unfold searchTypes
      split
      · exact sends_pure (by simp)
      · refine (hlook _ _).bind fun r s' _ hr => ?_
        cases r with
        | some a => exact sends_pure hr
        | none => exact (supertypes_sends _).bind fun _ _ _ _ => ih _ _

theorem typeName_bridgeQuery (type : TypeId) : (typeName type).Sends BridgeQuery s := by
  unfold typeName
  refine sends_get_bind ?_
  split
  · exact sends_pure trivial
  · refine (sends_command ⟨rfl, rfl⟩ rfl).bind fun _ _ _ _ => ?_
    exact (sends_modify (fun _ h => h) rfl rfl).bind fun _ _ _ _ => sends_pure trivial

theorem typeName_sends (type : TypeId) : (typeName type).Sends (BridgeCommand find) s :=
  (typeName_bridgeQuery type).weaken fun _ => BridgeQuery.bridgeCommand

/-- A method that was found is one that the debuggee has told. -/
def Finds (name descriptor : String) (found : TypeId × MethodInfo) (s : BridgeState) : Prop :=
  ∃ methods, s.methods.get? found.1 = some methods ∧ found.2 ∈ methods ∧
    found.2.name = name ∧ found.2.signature = descriptor

theorem method_sends (type : TypeId) (name descriptor : String) :
    (method type name descriptor).Sends (BridgeCommand find) s (Finds name descriptor) := by
  unfold method
  refine (searchTypes_sends (Finds name descriptor) (fun t s => ?_) _ _ _).bind
    fun r _ _ hr => ?_
  · refine (methodsOf_sends t).bind fun methods s' _ hmethods => sends_pure ?_
    intro found hfound
    obtain ⟨m, hm, rfl⟩ := Option.map_eq_some_iff.mp hfound
    have hsame := List.find?_some hm
    simp only [Bool.and_eq_true, beq_iff_eq] at hsame
    exact ⟨methods, hmethods, List.mem_of_find?_eq_some hm, hsame⟩
  · cases r with
    | some found => exact sends_pure (hr found rfl)
    | none => exact (typeName_sends _).bind fun _ _ _ _ => sends_throw

theorem typeOf_bridgeQuery (v : Value) : (typeOf v).Sends BridgeQuery s := by
  unfold typeOf
  split
  · exact sends_pure trivial
  · exact (sends_command ⟨rfl, rfl⟩ rfl).bind fun _ _ _ _ => typeName_bridgeQuery _
  · exact sends_pure trivial

theorem typeOf_sends (v : Value) : (typeOf v).Sends (BridgeCommand find) s :=
  (typeOf_bridgeQuery v).weaken fun _ => BridgeQuery.bridgeCommand

theorem isInstanceOf_sends (v : Value) (expected : String) :
    (isInstanceOf v expected).Sends (BridgeCommand find) s := by
  unfold isInstanceOf
  split
  · exact sends_pure trivial
  · refine (sends_command ⟨rfl, .inr rfl⟩ rfl).bind fun _ _ _ _ => ?_
    refine (searchTypes_sends (fun _ _ => True) (fun t s => ?_) _ _ _).bind
      fun _ _ _ _ => sends_pure trivial
    exact (typeName_sends t).bind fun _ _ _ _ => sends_pure fun _ _ => trivial

theorem requireInstanceOf_sends (v : Value) (expected : String) :
    (requireInstanceOf v expected).Sends (BridgeCommand find) s := by
  unfold requireInstanceOf
  refine (isInstanceOf_sends v expected).bind fun isInstance _ _ _ => ?_
  cases isInstance with
  | true => exact sends_pure trivial
  | false => exact (typeOf_sends v).bind fun _ _ _ _ => sends_throw

/-! ## Finding and defining classes -/

theorem classLoader_sends (b : Bridge) : b.classLoader.Sends (BridgeCommand find) s := by
  unfold classLoader
  refine sends_get_bind ?_
  split
  · exact sends_pure trivial
  · refine (sends_command ⟨rfl, .inr rfl⟩ rfl).bind fun _ _ _ _ => ?_
    exact (sends_modify (fun _ h => h) rfl rfl).bind fun _ _ _ _ => sends_pure trivial

theorem loadedBy_sends (loader : ObjectId) (classes : List ClassInfo) :
    (loadedBy loader classes).Sends (BridgeCommand find) s := by
  induction classes generalizing s with
  | nil => exact sends_pure trivial
  | cons c rest ih =>
      unfold loadedBy
      refine (sends_command ⟨rfl, .inr rfl⟩ rfl).bind fun _ _ _ _ => ?_
      split
      · exact sends_pure trivial
      · exact ih

theorem alreadyLoaded?_sends (b : Bridge) (className : String) :
    (b.alreadyLoaded? className).Sends (BridgeCommand find) s := by
  unfold alreadyLoaded?
  refine (sends_command ⟨rfl, .inr rfl⟩ rfl).bind fun _ _ _ _ => ?_
  split
  · exact sends_pure trivial
  · refine (classLoader_sends b).bind fun _ _ _ _ => ?_
    exact (loadedBy_sends _ _).bind fun _ _ _ _ => sends_pure trivial

theorem ofHost_sends (v : HostValue) : (ofHost v).Sends (BridgeCommand find) s := by
  unfold ofHost
  cases v with
  | string text =>
      refine (sends_command ⟨rfl, .inr rfl⟩ rfl).bind fun _ _ _ _ => ?_
      exact (store_sends _ _).bind fun _ _ _ _ => sends_pure trivial
  | _ => exact sends_pure trivial

theorem classForName_sends (b : Bridge) (className : String) :
    (b.classForName className).Sends (BridgeCommand true) s := by
  unfold classForName
  refine (alreadyLoaded?_sends _ _).bind fun r _ _ _ => ?_
  extract_lets search
  have hsearch : ∀ classClass s, (search classClass).Sends (BridgeCommand true) s := by
    intro classClass s
    refine (method_sends _ _ _).bind fun found _ _ _ => ?_
    refine (ofHost_sends _).bind fun name _ _ _ => ?_
    refine (classLoader_sends b).bind fun loader _ _ _ => ?_
    refine (sends_command ⟨rfl, .inl rfl⟩ rfl).bind fun outcome _ _ _ => ?_
    split
    · refine (typeOf_sends _).bind fun thrown _ _ _ => ?_
      split
      · exact sends_pure trivial
      · exact sends_throw
    · split
      · exact sends_throw
      · exact (sends_command ⟨rfl, .inr rfl⟩ rfl).bind fun _ _ _ _ => sends_pure trivial
  cases r with
  | some type => exact hsearch _ _
  | none => exact sends_throw

theorem defineClass_sends (b : Bridge) (className : String) :
    (b.defineClass className).Sends (BridgeCommand true) s := by
  unfold defineClass
  extract_lets refuse load
  have hload : ∀ bytes s, (load bytes).Sends (BridgeCommand true) s := by
    intro bytes s
    refine (classLoader_sends b).bind fun loader _ _ _ => ?_
    extract_lets values length define search
    have hdefine : ∀ arrayType s, (define arrayType).Sends (BridgeCommand true) s := by
      intro arrayType s
      refine (sends_command ⟨rfl, .inr rfl⟩ rfl).bind fun array _ _ _ => ?_
      refine (store_sends _ _).bind fun _ _ _ _ => ?_
      refine (sends_command ⟨rfl, .inr rfl⟩ rfl).bind fun _ _ _ _ => ?_
      refine (ofHost_sends _).bind fun name _ _ _ => ?_
      refine (sends_command ⟨rfl, .inr rfl⟩ rfl).bind fun loaderType _ _ _ => ?_
      refine (method_sends _ _ _).bind fun found _ _ _ => ?_
      refine (sends_command ⟨rfl, .inl rfl⟩ rfl).bind fun outcome _ _ _ => ?_
      split
      · exact (typeOf_sends _).bind fun _ _ _ _ => sends_throw
      · exact sends_pure trivial
    have hsearch : ∀ r s, (search r).Sends (BridgeCommand true) s := by
      intro r s
      refine (alreadyLoaded?_sends _ _).bind fun r _ _ _ => ?_
      cases r with
      | some type => exact hdefine _ _
      | none =>
          refine (classForName_sends _ _).bind fun r _ _ _ => ?_
          cases r with
          | some type => exact hdefine _ _
          | none => exact sends_throw
    split
    · exact sends_throw
    · exact hsearch () _
  split
  · exact hload _ _
  · exact sends_throw
  · exact sends_throw

/-- The class is known, or may be searched for. -/
def CanResolve (find : Bool) (s : BridgeState) (className : String) : Prop :=
  find = true ∨ s.Knows className

theorem CanResolve.remembers {s' : BridgeState} {className : String}
    (h : CanResolve find s className) (hs : s.Remembers s') : CanResolve find s' className :=
  h.imp_right (hs className)

theorem resolveType_sends (b : Bridge) {className : String} (h : CanResolve find s className) :
    (b.resolveType className).Sends (BridgeCommand find) s fun _ s' => s'.Knows className := by
  unfold resolveType
  refine sends_get_bind ?_
  split
  · rename_i type htype
    exact sends_pure (by simp [BridgeState.Knows, htype])
  · rename_i hunknown
    obtain rfl : find = true := by
      rcases h with h | h
      · exact h
      · rw [BridgeState.Knows, hunknown] at h
        exact absurd h (by simp)
    refine (alreadyLoaded?_sends _ _).bind fun r _ _ _ => ?_
    extract_lets note
    have hnote : ∀ type s, (note type).Sends (BridgeCommand true) s fun _ s' =>
      s'.Knows className := by
      intro type s
      refine (sends_modify (s.remembers_set_types className type) rfl rfl).bind ?_
      rintro _ _ - rfl
      exact sends_pure (s.knows_set_types className type)
    cases r with
    | some type => exact hnote _ _
    | none =>
        refine (classForName_sends _ _).bind fun r _ _ _ => ?_
        cases r with
        | some type => exact hnote _ _
        | none =>
            refine (defineClass_sends _ _).bind fun _ _ _ _ => ?_
            refine (classForName_sends _ _).bind fun r _ _ _ => ?_
            cases r with
            | some type => exact hnote _ _
            | none => exact sends_throw

/-! ## Objects, arrays and invocations -/

theorem newArray_sends (b : Bridge) {arrayType : String} (h : CanResolve find s arrayType)
    (length : Int32) : (b.newArray arrayType length).Sends (BridgeCommand find) s := by
  unfold newArray
  refine (resolveType_sends b h).bind fun type _ _ _ => ?_
  refine (sends_command ⟨rfl, .inr rfl⟩ rfl).bind fun id _ _ _ => ?_
  exact (store_sends _ _).bind fun _ _ _ _ => sends_pure trivial

theorem construct_sends (b : Bridge) {className : String} (h : CanResolve find s className)
    (constructor : String) (args : List Value) :
    (b.construct className constructor args).Sends (BridgeCommand find) s := by
  unfold construct
  dsimp only
  split
  · split
    · exact newArray_sends b h _
    · exact sends_throw
  · refine (resolveType_sends b h).bind fun type _ _ _ => ?_
    refine (method_sends _ _ _).bind fun found _ _ _ => ?_
    refine (sends_commandOr ⟨rfl, .inr rfl⟩ rfl).bind fun outcome _ _ _ => ?_
    split
    · exact (typeOf_sends _).bind fun _ _ _ _ => sends_throw
    · exact (store_sends _ _).bind fun _ _ _ _ => sends_pure trivial

theorem arrayOf_sends (b : Bridge) {component : String} (h : CanResolve find s s!"{component}[]")
    (values : List Value) : (b.arrayOf component values).Sends (BridgeCommand find) s := by
  unfold arrayOf
  refine (construct_sends b h _ _).bind fun array _ _ _ => ?_
  split
  · exact sends_pure trivial
  · exact (sends_commandOr ⟨rfl, .inr rfl⟩ rfl).bind fun _ _ _ _ => sends_pure trivial

theorem array_sends (b : Bridge) (values : List Value) :
    (b.array values).Sends (BridgeCommand true) s := by
  unfold array
  split
  · exact arrayOf_sends b (.inl rfl) values
  · exact sends_throw

theorem keep_bridgeQuery (v : Value) : (keep v).Sends BridgeQuery s := by
  unfold keep
  split
  · exact sends_pure trivial
  · exact (typeOf_bridgeQuery v).bind fun _ _ _ _ => store_bridgeQuery _ _

theorem keep_sends (v : Value) : (keep v).Sends (BridgeCommand find) s :=
  (keep_bridgeQuery v).weaken fun _ => BridgeQuery.bridgeCommand

theorem finishInvocation_sends (method : String) (outcome : InvokeOutcome) :
    (finishInvocation method outcome).Sends (BridgeCommand find) s := by
  unfold finishInvocation
  split
  · exact sends_throw
  · exact (keep_sends _).bind fun _ _ _ _ => sends_pure trivial

theorem invoke_sends (b : Bridge) (receiver : Value) (name descriptor : String)
    {args : List Value} (h : find = true ∨ args.length ≠ 4) :
    (b.invoke receiver name descriptor args).Sends (BridgeCommand find) s := by
  unfold invoke
  split
  · exact (typeOf_sends _).bind fun _ _ _ _ => sends_throw
  · refine (sends_command ⟨rfl, .inr rfl⟩ rfl).bind fun type _ _ _ => ?_
    refine (method_sends _ _ _).bind fun found _ _ _ => ?_
    refine (sends_commandOr ⟨rfl, h.imp_right fun h => ?_⟩ rfl).bind fun _ _ _ _ =>
      finishInvocation_sends _ _
    simpa [Command.findsClass] using h

theorem invokeStatic_sends (b : Bridge) {className : String} (hclass : CanResolve find s className)
    (name descriptor : String) {args : List Value} (h : find = true ∨ args.length ≠ 3) :
    (b.invokeStatic className name descriptor args).Sends (BridgeCommand find) s := by
  unfold invokeStatic
  refine (resolveType_sends b hclass).bind fun type _ _ _ => ?_
  refine (method_sends _ _ _).bind fun found _ _ _ => ?_
  refine (sends_commandOr ⟨rfl, h.imp_right fun h => ?_⟩ rfl).bind fun _ _ _ _ =>
    finishInvocation_sends _ _
  simpa [Command.findsClass] using h

/-! ## Reading -/

theorem readString_sends (v : Value) : (readString v).Sends (BridgeCommand find) s := by
  unfold readString
  split
  · exact sends_throw
  · exact sends_command ⟨rfl, .inr rfl⟩ rfl

theorem readArray_sends (v : Value) : (readArray v).Sends (BridgeCommand find) s := by
  unfold readArray
  split
  · exact sends_throw
  · refine (sends_command ⟨rfl, .inr rfl⟩ rfl).bind fun (length : Int) _ _ _ => ?_
    exact sends_ite (fun _ => sends_pure trivial) fun _ => sends_command ⟨rfl, .inr rfl⟩ rfl

end Bridge

/-! ## Probes -/

namespace Probe

open Routine BridgeRoutine Bridge

variable {find : Bool} {s : BridgeState}

theorem new_sends (b : Bridge) (h : CanResolve find s ClassName.atomicInteger) :
    (Probe.new b).Sends (BridgeCommand find) s := by
  unfold Probe.new
  exact (construct_sends b h _ _).bind fun _ _ _ _ => sends_pure trivial

/-- The classes of recording are known, or may be searched for. -/
def CanRecord (find : Bool) (s : BridgeState) : Prop :=
  CanResolve find s ClassName.linkedHashMap ∧ CanResolve find s HelperClass.collector.name

theorem CanRecord.remembers {s' : BridgeState} (h : CanRecord find s) (hs : s.Remembers s') :
    CanRecord find s' := ⟨h.1.remembers hs, h.2.remembers hs⟩

variable (p : Probe)

theorem newMap_sends (h : CanRecord find s) : p.newMap.Sends (BridgeCommand find) s :=
  construct_sends _ h.1 _ _

theorem newCollector_sends (h : CanRecord find s) (map : Value) (tick : Bool) :
    (p.newCollector map tick).Sends (BridgeCommand find) s := construct_sends _ h.2 _ _

theorem peek_sends (stream : Value) (element : ElementType) (collector : Value) :
    (p.peek stream element collector).Sends (BridgeCommand find) s :=
  invoke_sends _ _ _ _ (.inr (by simp))

theorem collect_sends (h : CanRecord find s) (element : Option ElementType) (stream : Value)
    (tick : Bool) : (p.collect element stream tick).Sends (BridgeCommand find) s := by
  unfold collect
  split
  · refine (newMap_sends p h).bind fun map _ h₁ _ => ?_
    refine (newCollector_sends p (h.remembers h₁) _ _).bind fun collector _ _ _ => ?_
    exact (peek_sends p _ _ _).bind fun _ _ _ _ => sends_pure trivial
  · exact sends_pure trivial

theorem sequential_sends (stream : Value) : (p.sequential stream).Sends (BridgeCommand find) s :=
  invoke_sends _ _ _ _ (.inr (by simp))

theorem formatMap_sends (element : ElementType) (map : Value) :
    (p.formatMap element map).Sends (BridgeCommand true) s := by
  unfold formatMap
  refine (requireInstanceOf_sends _ _).bind fun _ _ _ _ => ?_
  exact invokeStatic_sends _ (.inl rfl) _ _ (.inl rfl)

theorem emptySide_sends : p.emptySide.Sends (BridgeCommand true) s := by
  unfold emptySide
  refine (arrayOf_sends _ (.inl rfl) _).bind fun keys _ _ _ => ?_
  exact (arrayOf_sends _ (.inl rfl) _).bind fun _ _ _ _ => array_sends _ _

theorem packSide_sends (element : Option ElementType) (map : Option Value) :
    (p.packSide element map).Sends (BridgeCommand true) s := by
  unfold packSide
  split
  · exact formatMap_sends p _ _
  · exact emptySide_sends p

theorem packResult_sends (result : Option Value) :
    (p.packResult result).Sends (BridgeCommand true) s := by
  unfold packResult
  split
  · exact construct_sends _ (.inl rfl) _ _
  · exact construct_sends _ (.inl rfl) _ _
  · exact array_sends _ _

theorem contentOfOptional_sends (result : Option Value) :
    (p.contentOfOptional result).Sends (BridgeCommand true) s := by
  unfold contentOfOptional
  split
  · exact sends_pure trivial
  · refine (typeOf_sends _).bind fun typeName _ _ _ => ?_
    split
    · exact sends_throw
    · refine (invoke_sends _ _ _ _ (.inl rfl)).bind fun present _ _ _ => ?_
      exact (invoke_sends _ _ _ _ (.inl rfl)).bind fun _ _ _ _ => sends_pure trivial

end Probe

/-! ## Stage handlers -/

namespace Peek

open Routine BridgeRoutine

variable {find : Bool} {s : BridgeState} (k : Peek) (p : Probe)

theorem beforeCall_sends (h : Probe.CanRecord find s) (stream : Value) :
    (k.beforeCall p stream).Sends (BridgeCommand find) s := by
  unfold beforeCall
  exact (p.collect_sends h _ _ _).bind fun _ _ _ _ => sends_pure trivial

theorem afterCall_sends (h : Probe.CanRecord find s) (stream : Value) :
    (k.afterCall p stream).Sends (BridgeCommand find) s := by
  unfold afterCall
  exact (p.collect_sends h _ _ _).bind fun _ _ _ _ => sends_pure trivial

theorem result_sends : (k.result p).Sends (BridgeCommand true) s := by
  unfold result
  refine (p.packSide_sends _ _).bind fun before _ _ _ => ?_
  exact (p.packSide_sends _ _).bind fun _ _ _ _ => Bridge.array_sends _ _

end Peek

namespace StageHandler

open Routine BridgeRoutine

variable {find : Bool} {s : BridgeState} (h : StageHandler) (p : Probe)

/-- The classes that the handler's steps use are known, or may be searched for. -/
def CanStep (find : Bool) (s : BridgeState) (h : StageHandler) : Prop :=
  Probe.CanRecord find s ∧ ∀ c, h.matcher? = some c → Bridge.CanResolve find s c.name

variable {h} in
theorem CanStep.remembers {s' : BridgeState} (hh : h.CanStep find s) (hs : s.Remembers s') :
    h.CanStep find s' := ⟨hh.1.remembers hs, fun c hc => (hh.2 c hc).remembers hs⟩

theorem spliceArguments_sends (hready : h.CanStep find s) (args : List Value) :
    (h.spliceArguments p args).Sends (BridgeCommand find) s
    (fun r _ => r.1.matcher? = h.matcher?) := by
  cases h with
  | matching element predicateType maps result =>
      unfold spliceArguments
      dsimp only
      split
      · split
        · exact sends_throw
        · rename_i matcher constructor hmatcher
          obtain ⟨hprobe, hmatch⟩ := hready
          have hclass := hmatch matcher (by simp [matcher?, hmatcher])
          refine (p.newMap_sends hprobe).bind fun before _ h₁ _ => ?_
          refine (p.newMap_sends (hprobe.remembers h₁)).bind fun after _ h₂ _ => ?_
          refine (Bridge.construct_sends _ (hclass.remembers (h₁.trans h₂)) _ _).bind
            fun _ _ _ _ => sends_pure rfl
      · exact sends_throw
  | _ => exact sends_pure rfl

theorem beforeCall_sends (hready : h.CanStep find s) (stream : Value) :
    (h.beforeCall p stream).Sends (BridgeCommand find) s
    (fun r _ => r.1.matcher? = h.matcher?) := by
  unfold beforeCall
  cases h with
  | source => exact sends_pure rfl
  | matching => exact sends_pure rfl
  | _ => exact (Peek.beforeCall_sends _ _ hready.1 _).bind fun _ _ _ _ => sends_pure rfl

theorem afterCall_sends (hready : h.CanStep find s) (returned : Value) :
    (h.afterCall p returned).Sends (BridgeCommand find) s
    (fun r _ => r.1.matcher? = h.matcher?) := by
  unfold afterCall
  cases h with
  | source element sequential =>
      dsimp only
      split
      · exact sends_pure rfl
      · refine sends_ite (fun _ => ?_) fun _ => ?_
        · refine (p.sequential_sends _).bind fun stream _ hs _ => ?_
          refine (p.newCollector_sends (hready.1.remembers hs) _ _).bind fun ticker _ _ _ => ?_
          exact (p.peek_sends _ _ _).bind fun _ _ _ _ => sends_pure rfl
        · refine (p.newCollector_sends hready.1 _ _).bind fun ticker _ _ _ => ?_
          exact (p.peek_sends _ _ _).bind fun _ _ _ _ => sends_pure rfl
  | intermediate k =>
      exact (k.afterCall_sends p hready.1 _).bind fun _ _ _ _ => sends_pure rfl
  | parallel k =>
      dsimp only
      refine sends_ite (fun _ => ?_) fun _ => ?_
      · refine (p.sequential_sends _).bind fun stream _ hs _ => ?_
        exact (k.afterCall_sends p (hready.1.remembers hs) _).bind fun _ _ _ _ => sends_pure rfl
      · exact (k.afterCall_sends p hready.1 _).bind fun _ _ _ _ => sends_pure rfl
  | _ => exact sends_pure rfl

theorem result_sends : (h.result p).Sends (BridgeCommand true) s := by
  unfold result
  cases h with
  | source => exact sends_pure trivial
  | intermediate k => exact (k.result_sends p).bind fun _ _ _ _ => sends_pure trivial
  | parallel k => exact (k.result_sends p).bind fun _ _ _ _ => sends_pure trivial
  | terminal k result =>
      refine (k.result_sends p).bind fun info _ _ _ => ?_
      refine (p.packResult_sends _).bind fun wrapped _ _ _ => ?_
      exact (Bridge.array_sends _ _).bind fun _ _ _ _ => sends_pure trivial
  | matching element predicateType maps result =>
      refine (p.packSide_sends _ _).bind fun before _ _ _ => ?_
      refine (p.packSide_sends _ _).bind fun after _ _ _ => ?_
      refine (Bridge.array_sends _ _).bind fun info _ _ _ => ?_
      refine (p.packResult_sends _).bind fun wrapped _ _ _ => ?_
      refine (Bridge.array_sends _ _).bind fun payload _ _ _ => ?_
      exact (Bridge.array_sends _ _).bind fun _ _ _ _ => sends_pure trivial
  | optional k result =>
      refine (k.result_sends p).bind fun info _ _ _ => ?_
      refine (p.packResult_sends _).bind fun wrapped _ _ _ => ?_
      refine (p.contentOfOptional_sends _).bind fun content _ _ _ => ?_
      refine (Bridge.array_sends _ _).bind fun present _ _ _ => ?_
      refine (Bridge.array_sends _ _).bind fun value _ _ _ => ?_
      refine (Bridge.array_sends _ _).bind fun content _ _ _ => ?_
      refine (Bridge.array_sends _ _).bind fun payload _ _ _ => ?_
      exact (Bridge.array_sends _ _).bind fun _ _ _ _ => sends_pure trivial
  | collection k result =>
      refine (k.result_sends p).bind fun info _ _ _ => ?_
      refine (p.packResult_sends _).bind fun wrapped _ _ _ => ?_
      refine (Bridge.invoke_sends _ _ _ _ (.inl rfl)).bind fun time _ _ _ => ?_
      refine (Bridge.arrayOf_sends _ (.inl rfl) _).bind fun times _ _ _ => ?_
      refine (Bridge.array_sends _ _).bind fun payload _ _ _ => ?_
      exact (Bridge.array_sends _ _).bind fun _ _ _ _ => sends_pure trivial

end StageHandler

/-! ## Packing and reading back -/

namespace Bridge

open Routine BridgeRoutine

variable {find : Bool} {s : BridgeState}

theorem pack_sends (b : Bridge) (r : RawResults) : (b.pack r).Sends (BridgeCommand true) s := by
  unfold pack
  refine (readArray_sends _).bind fun slots _ _ _ => ?_
  split
  · refine (array_sends _ _).bind fun info _ _ _ => ?_
    extract_lets finish
    have hfinish : ∀ result s, (finish result).Sends (BridgeCommand true) s := fun result s =>
      (arrayOf_sends _ (.inl rfl) _).bind fun elapsed _ _ _ => array_sends _ _
    split
    · exact (arrayOf_sends _ (.inl rfl) _).bind fun _ _ _ _ => hfinish _ _
    · exact hfinish _ _
  · exact sends_throw

theorem readSlots_sends (v : Value) : (readSlots v).Sends (BridgeCommand find) s :=
  sends_mapError (readArray_sends v)

theorem readOne_sends (v : Value) (what : String) :
    (readOne v what).Sends (BridgeCommand find) s := by
  unfold readOne
  refine (readSlots_sends v).bind fun slots _ _ _ => ?_
  split
  · exact sends_pure trivial
  · exact sends_throw

theorem readTwo_sends (v : Value) (what : String) :
    (readTwo v what).Sends (BridgeCommand find) s := by
  unfold readTwo
  refine (readSlots_sends v).bind fun slots _ _ _ => ?_
  split
  · exact sends_pure trivial
  · exact sends_throw

theorem readThree_sends (v : Value) (what : String) :
    (readThree v what).Sends (BridgeCommand find) s := by
  unfold readThree
  refine (readSlots_sends v).bind fun slots _ _ _ => ?_
  split
  · exact sends_pure trivial
  · exact sends_throw

theorem readValue_sends (v : Value) : (readValue v).Sends (BridgeCommand find) s := by
  unfold readValue
  cases v with
  | reference tag id =>
      dsimp only
      split
      · exact sends_pure trivial
      · split
        · exact (readString_sends _).bind fun _ _ _ _ => sends_pure trivial
        · exact (typeOf_sends _).bind fun _ _ _ _ => sends_pure trivial
  | _ => exact sends_pure trivial

theorem readTraced_sends (entries : List (Value × Value)) :
    (readTraced entries).Sends (BridgeCommand find) s := by
  induction entries generalizing s with
  | nil => exact sends_pure trivial
  | cons entry rest ih =>
      unfold readTraced
      split
      · exact sends_throw
      · refine (readValue_sends _).bind fun value _ _ _ => ?_
        exact ih.bind fun _ _ _ _ => sends_pure trivial

theorem readSide_sends (v : Value) : (readSide v).Sends (BridgeCommand find) s := by
  unfold readSide
  refine (readTwo_sends _ _).bind fun sides _ _ _ => ?_
  refine (readSlots_sends _).bind fun keys _ _ _ => ?_
  refine (readSlots_sends _).bind fun values _ _ _ => ?_
  split
  · exact readTraced_sends _
  · exact sends_throw

theorem readStage_sends (call : String) (v : Value) :
    (readStage call v).Sends (BridgeCommand find) s := by
  unfold readStage
  refine (readTwo_sends _ _).bind fun sides _ _ _ => ?_
  refine (readSide_sends _).bind fun before _ _ _ => ?_
  exact (readSide_sends _).bind fun _ _ _ _ => sends_pure trivial

theorem readStages_sends (stages : List (StreamCall × Value)) :
    (readStages stages).Sends (BridgeCommand find) s := by
  induction stages generalizing s with
  | nil => exact sends_pure trivial
  | cons stage rest ih =>
      unfold readStages
      refine (readStage_sends _ _).bind fun stage _ _ _ => ?_
      exact ih.bind fun _ _ _ _ => sends_pure trivial

theorem readTerminal_sends (kind : HandlerKind) (v : Value) :
    (readTerminal kind v).Sends (BridgeCommand find) s := by
  unfold readTerminal
  split
  · refine (readTwo_sends _ _).bind fun info _ _ _ => ?_
    refine (readOne_sends _ _).bind fun result _ _ _ => ?_
    exact (readValue_sends _).bind fun _ _ _ _ => sends_pure trivial
  · refine (readTwo_sends _ _).bind fun info _ _ _ => ?_
    refine (readTwo_sends _ _).bind fun content _ _ _ => ?_
    refine (readOne_sends _ _).bind fun present _ _ _ => ?_
    refine (readOne_sends _ _).bind fun value _ _ _ => ?_
    split
    · exact sends_throw
    · exact sends_ite (fun _ => (readValue_sends _).bind fun _ _ _ _ => sends_pure trivial)
        fun _ => sends_pure trivial
  · refine (readTwo_sends _ _).bind fun info _ _ _ => ?_
    refine (readOne_sends _ _).bind fun time _ _ _ => ?_
    split
    · exact sends_throw
    · exact sends_pure trivial
  · exact sends_pure trivial

theorem readOutcome_sends (v : Value) (returnsVoid : Bool) :
    (readOutcome v returnsVoid).Sends (BridgeCommand find) s := by
  unfold readOutcome
  refine (typeOf_sends _).bind fun typeName _ _ _ => ?_
  refine (readOne_sends _ _).bind fun first _ _ _ => ?_
  split
  · exact (readValue_sends _).bind fun _ _ _ _ => sends_pure trivial
  · split
    · exact sends_pure trivial
    · exact (readValue_sends _).bind fun _ _ _ _ => sends_pure trivial

theorem interpret_sends (chain : StreamChain) (packed : Value) :
    (interpret chain packed).Sends (BridgeCommand find) s := by
  unfold interpret
  refine (readThree_sends _ _).bind fun parts _ _ _ => ?_
  refine (readArray_sends _).bind fun info _ _ _ => ?_
  extract_lets expected terminalInfo read
  have hread : ∀ r s, (read r).Sends (BridgeCommand find) s := by
    intro r s
    refine (readStages_sends _).bind fun stages _ _ _ => ?_
    refine (readTerminal_sends _ _).bind fun terminal _ _ _ => ?_
    refine (readStage_sends _ _).bind fun last _ _ _ => ?_
    refine (readOutcome_sends _ _).bind fun outcome _ _ _ => ?_
    refine (readOne_sends _ _).bind fun elapsed _ _ _ => ?_
    split
    · exact sends_throw
    · exact sends_pure trivial
  exact sends_ite (fun _ => sends_throw) fun _ => hread () _

end Bridge

end StreamTrace
