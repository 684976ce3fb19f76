import Mathlib.Logic.Function.Basic
import StreamTrace.Proofs.Debugger.DebuggeeTalk
import StreamTrace.Proofs.Debugger.HelperDefinitions
import StreamTrace.Proofs.Debugger.WorldResults
import StreamTrace.Proofs.Machine.IntactMachine

/-!
# Types that are asked for

Several bridges to one stopped machine are asked for types, one after another. What a bridge has
learnt stays true and what is loaded stays loaded, so a type that was found is found again, and a
helper is defined once. A type that is missed leaves nothing behind: whether a class is found, and
what is said of it when it is not, depends on the signatures that are loaded and on its class file.
-/

namespace StreamTrace

open Routine Vm

namespace Vm

variable {vm vm' : Vm}

/-- No class is defined twice. -/
theorem Intact.timesDefined_le (hvm : vm.Intact) (name : String) :
    vm.timesDefined name ≤ 1 := by
  have hone := List.nodup_iff_count_le_one.mp hvm.distinct.signatures (typeNameToSignature name)
  rw [hvm.counted name]
  refine Nat.le_trans ?_ hone
  unfold ClassTable.helpersNamed
  rw [List.count_eq_countP, List.countP_map]
  refine List.countP_mono_left fun c hc h => ?_
  rw [Bool.and_eq_true, beq_iff_eq] at h
  simp [hvm.distinct.spelled c hc, h.1]

/-- Which element types a loader knows shows in the signatures that are loaded. -/
theorem Knows.of_signatures (hvm : vm.Intact) (hvm' : vm'.Intact) {name : String}
    (hname : IsComponent name) (hsame : vm'.signatures = vm.signatures)
    (h : vm.Knows name vm.appLoader) : vm'.Knows name vm'.appLoader := by
  intro hclass
  obtain ⟨type, htype⟩ := Option.isSome_iff_exists.mp (h hclass)
  obtain ⟨c, hc, rfl, -, -⟩ := ClassTable.mem_of_named? htype
  obtain ⟨c', hc', hsignature⟩ := mem_signatures_iff.mp (hsame ▸ mem_signatures hc)
  have hsome := hvm'.named c' hc'
  rw [hsignature, hvm.named c hc, Option.some.injEq] at hsome
  rw [hsome, hvm'.distinct.named? hc' (hvm'.visible c' hc')]
  rfl

theorem Unknown.of_signatures (hvm : vm.Intact) (hvm' : vm'.Intact) {name : String}
    (hname : Bridge.IsLookedUp name) (hsame : vm'.signatures = vm.signatures)
    (h : vm.Unknown name) : vm'.Unknown name := by
  have hnew : vm'.Lacks name := lacks_iff.mpr (hsame ▸ lacks_iff.mp h.lacks)
  rcases hname.knows_or_unknown hvm'.toEquipped hnew with
    ⟨-, component, hcomponent, rfl, hknows⟩ | hunknown
  · have hknown := hknows.of_signatures hvm' hvm hcomponent hsame.symm
    exact absurd h.unfound (findClass_array_known hcomponent hknown)
  · exact hunknown

end Vm

theorem JavaType.IsTypeName.isLookedUp {name : String} (h : IsTypeName name.toList) :
    Bridge.IsLookedUp name := by
  rcases h.lookup_cases with hplain | ⟨component, hcomponent, rfl⟩
  · exact .inl hplain
  · exact .inr ⟨component, hcomponent.isComponent, rfl⟩

/-- A loaded class is asked for by its signature, if the bridge does not know it yet. -/
theorem Bridge.resolveType_loaded {b : Bridge} {s : BridgeState} {vm : Vm} {c : ClassDef}
    (hready : b.stocked.Ready s vm) {name : String} (hc : c ∈ vm.classes)
    (hsignature : c.signature = typeNameToSignature name) :
    (b.resolveType name).Meets (.talk Vm.answer)
      (fun type _ w => type = c.id ∧
        ∀ command ∈ w.sent, command = .classesBySignature (typeNameToSignature name))
      (fun _ _ _ => False) s { debuggee := vm } := by
  refine Routine.meets_bind.mpr (Routine.meets_get.mpr ?_)
  cases hknown : s.types.get? name with
  | some type =>
      obtain ⟨c', hc', rfl, hsignature'⟩ := hready.fits.types _ _ hknown
      obtain rfl := hready.equipped.distinct.eq_of_signature hc' hc
        (hsignature'.trans hsignature.symm)
      exact Routine.meets_pure.mpr ⟨rfl, nofun⟩
  | none =>
      obtain ⟨r, vm', hrun, rfl, rfl⟩ := does_classesBySignature hready.halted.alive
        (typeNameToSignature name)
      rw [← hsignature, hready.equipped.distinct.filter hc, hsignature] at hrun
      refine Routine.meets_bind.mpr (Routine.meets_bind.mpr (meets_talk_command hrun ?_))
      refine Routine.meets_pure.mpr (Routine.meets_bind.mpr (Routine.meets_pure.mpr ?_))
      refine Routine.meets_bind.mpr (Routine.meets_modify.mpr (Routine.meets_pure.mpr ⟨rfl, ?_⟩))
      exact fun command hmem => List.mem_singleton.mp hmem

/-! ## Queries -/

/-- One of several bridges is asked for a type, and can get these class files. -/
structure TypeQuery (ι : Type) where
  bridge : ι
  name : String
  files : ClassFiles

/-- What comes of a query, and the commands that it takes. -/
structure TypeAnswer where
  result : Except TraceError TypeId
  sent : List Command

/-- A machine, and what each of several bridges has learnt in it. -/
structure Bridged (ι : Type) where
  vm : Vm
  states : ι → BridgeState

variable {ι : Type} [DecidableEq ι] (bridges : ι → Bridge)

namespace TypeQuery

/-- The bridge with the class files that it can get. -/
def asker (q : TypeQuery ι) : Bridge := { bridges q.bridge with classFiles := q.files }

def ask (q : TypeQuery ι) (w : Bridged ι) : TypeAnswer × Bridged ι :=
  let ((result, state), talk) :=
    ((q.asker bridges).resolveType q.name).talk Vm.answer (w.states q.bridge) w.vm
  ({ result, sent := talk.sent },
    { vm := talk.debuggee, states := Function.update w.states q.bridge state })

/-- The answers to queries, one after another. -/
def askAll : List (TypeQuery ι) → Bridged ι → List TypeAnswer × Bridged ι
  | [], w => ([], w)
  | q :: rest, w =>
    let (first, w) := q.ask bridges w
    let (others, w) := askAll rest w
    (first :: others, w)

/-- The type is found, and nothing but its class is loaded on the way; or it is missed, and no
class is loaded. -/
inductive Outcome (q : TypeQuery ι) (vm vm' : Vm) : Except TraceError TypeId → Prop
  | found {c : ClassDef} (hfound : ¬(q.asker bridges).Misses vm q.name) (hc : c ∈ vm'.classes)
    (hsignature : c.signature = typeNameToSignature q.name)
    (hloaded : vm'.signatures = loading vm.signatures (typeNameToSignature q.name)) :
    Outcome q vm vm' (.ok c.id)
  | missed (hmisses : (q.asker bridges).Misses vm q.name) (hclasses : vm'.classes = vm.classes) :
    Outcome q vm vm' (.error ((q.asker bridges).refusal q.name))

end TypeQuery

/-- The bridges work from the program's class in a stopped machine, and no exception is waited
for. -/
structure Bridged.Open (w : Bridged ι) : Prop where
  intact : w.vm.Intact
  ready : ∀ i, (bridges i).stocked.Ready (w.states i) w.vm
  unguarded : w.vm.Unguarded

namespace TypeQuery

variable {bridges} {q : TypeQuery ι} {w w' : Bridged ι}

theorem ask_outcome (h : w.Open bridges) (hname : JavaType.IsTypeName q.name.toList) :
    (q.ask bridges w).2.Open bridges ∧ w.vm.Extended (q.ask bridges w).2.vm ∧
      q.Outcome bridges w.vm (q.ask bridges w).2.vm (q.ask bridges w).1.result := by
  have hready : (q.asker bridges).stocked.Ready (w.states q.bridge) w.vm := h.ready q.bridge
  have hmeets := Bridge.resolveType_settles hready (fun _ => hname.isLookedUp) fun _ => h.unguarded
  have hopen : ∀ {s' : BridgeState} {vm' : Vm}, (q.asker bridges).stocked.Ready s' vm' →
      w.vm.Extended vm' →
        Bridged.Open bridges { vm := vm', states := Function.update w.states q.bridge s' } := by
    intro s' vm' hready' hextended
    have hunguarded := h.unguarded.kept fun _ hr => hextended.requests ▸ hr
    refine ⟨h.intact.extended hextended, fun i => ?_, hunguarded⟩
    by_cases hi : i = q.bridge
    · subst hi
      show (bridges q.bridge).stocked.Ready (Function.update w.states q.bridge s' q.bridge) vm'
      rw [Function.update_self]
      exact hready'
    · show (bridges i).stocked.Ready (Function.update w.states q.bridge s' i) vm'
      rw [Function.update_of_ne hi]
      exact (h.ready i).extended hextended
  unfold ask
  rcases (Routine.Meets.of_machine (w := { debuggee := w.vm }) hmeets).talk with
    ⟨type, s', talk, htalk, hready', hextended, hfound, ⟨c, hc, rfl, hsignature⟩, hloaded⟩ |
      ⟨e, s', talk, htalk, hready', hextended, hmisses, hclasses, rfl⟩
  · rw [htalk]
    exact ⟨hopen hready' hextended, hextended, .found hfound hc hsignature hloaded⟩
  · rw [htalk]
    exact ⟨hopen hready' hextended, hextended, .missed hmisses hclasses⟩

theorem ask_loaded (h : w.Open bridges) {c : ClassDef} (hc : c ∈ w.vm.classes)
    (hsignature : c.signature = typeNameToSignature q.name) :
    (q.ask bridges w).1.result = .ok c.id ∧ ∀ command ∈ (q.ask bridges w).1.sent,
      command = .classesBySignature (typeNameToSignature q.name) := by
  have hready : (q.asker bridges).stocked.Ready (w.states q.bridge) w.vm := h.ready q.bridge
  obtain ⟨type, s', talk, htalk, rfl, hsent⟩ :=
    (Bridge.resolveType_loaded hready hc hsignature).talk_ok
  unfold ask
  rw [htalk]
  exact ⟨rfl, hsent⟩

theorem askAll_open {queries : List (TypeQuery ι)}
    (hnames : ∀ q ∈ queries, JavaType.IsTypeName q.name.toList) (h : w.Open bridges) :
    (askAll bridges queries w).2.Open bridges ∧
      w.vm.Extended (askAll bridges queries w).2.vm := by
  induction queries generalizing w with
  | nil => exact ⟨h, .refl h.intact.toEquipped⟩
  | cons q rest ih =>
      obtain ⟨hopen, hextended, -⟩ := ask_outcome h (hnames q List.mem_cons_self)
      obtain ⟨hopen', hextended'⟩ := ih (fun q' hq' => hnames q' (List.mem_cons_of_mem _ hq')) hopen
      exact ⟨hopen', hextended.trans hextended'⟩

/-! ## What was missed -/

end TypeQuery

/-- Two answers are alike if both bridges find the type or fail alike. A class that was loaded at
`vm` is found under its identifier. -/
def TypeAnswer.Alike (vm : Vm) (a a' : TypeAnswer) : Prop :=
  a.result.map (fun _ => ()) = a'.result.map (fun _ => ()) ∧
    ∀ c ∈ vm.classes, a.result = .ok c.id ↔ a'.result = .ok c.id

/-- Machines that come from `vm`, with the same signatures loaded. -/
structure Bridged.Alike (bridges : ι → Bridge) (vm : Vm) (w w' : Bridged ι) : Prop where
  first : w.Open bridges
  second : w'.Open bridges
  firstTended : vm.Extended w.vm
  secondTended : vm.Extended w'.vm
  signatures : w'.vm.signatures = w.vm.signatures

namespace TypeQuery

variable {bridges} {q : TypeQuery ι} {w w' : Bridged ι} {vm : Vm}

/-- A class of `vm` that has the signature is the one that is found later. -/
theorem id_of_signature {vm vm' : Vm} (h : vm.Extended vm') {c c' : ClassDef} (hc : c ∈ vm.classes)
    (hc' : c' ∈ vm'.classes) : c.id = c'.id ↔ c.signature = c'.signature := by
  obtain ⟨d, hd, hstays⟩ := h.classes c hc
  rw [← hstays.id, ← hstays.signature]
  constructor
  · intro hid
    rw [h.equipped.distinct.eq_of_id hd hc' hid]
  · intro hsignature
    rw [h.equipped.distinct.eq_of_signature hd hc' hsignature]

theorem ask_alike (h : w.Alike bridges vm w') (hname : JavaType.IsTypeName q.name.toList) :
    (q.ask bridges w).1.Alike vm (q.ask bridges w').1 ∧
      (q.ask bridges w).2.Alike bridges vm (q.ask bridges w').2 := by
  obtain ⟨hopen, hextended, hsettles⟩ := ask_outcome h.first hname
  obtain ⟨hopen', hextended', hsettles'⟩ := ask_outcome h.second hname
  have hmisses : (q.asker bridges).Misses w.vm q.name ↔ (q.asker bridges).Misses w'.vm q.name :=
    and_congr_left fun _ =>
      ⟨.of_signatures h.first.intact h.second.intact hname.isLookedUp h.signatures,
        .of_signatures h.second.intact h.first.intact hname.isLookedUp h.signatures.symm⟩
  have hfirst := h.firstTended.trans hextended
  have hsecond := h.secondTended.trans hextended'
  unfold TypeAnswer.Alike
  generalize (q.ask bridges w).1.result = r at hsettles ⊢
  generalize (q.ask bridges w').1.result = r' at hsettles' ⊢
  cases hsettles with
  | @found c hfound hc hsignature hloaded =>
      cases hsettles' with
      | @found c' _ hc' hsignature' hloaded' =>
          refine ⟨⟨rfl, fun d hd => ?_⟩, hopen, hopen', hfirst, hsecond, ?_⟩
          · rw [Except.ok.injEq, Except.ok.injEq, eq_comm, id_of_signature hfirst hd hc,
              eq_comm (a := c'.id), id_of_signature hsecond hd hc', hsignature, hsignature']
          · rw [hloaded', hloaded, h.signatures]
      | missed hmissed => exact absurd (hmisses.mpr hmissed) hfound
  | missed hmissed hclasses =>
      cases hsettles' with
      | found hfound => exact absurd (hmisses.mp hmissed) hfound
      | missed _ hclasses' =>
          refine ⟨⟨rfl, fun d hd => ⟨nofun, nofun⟩⟩, hopen, hopen', hfirst, hsecond, ?_⟩
          rw [signatures_of_classes hclasses', signatures_of_classes hclasses, h.signatures]

theorem askAll_alike {queries : List (TypeQuery ι)}
    (hnames : ∀ q ∈ queries, JavaType.IsTypeName q.name.toList) (h : w.Alike bridges vm w') :
    List.Forall₂ (TypeAnswer.Alike vm) (askAll bridges queries w).1
      (askAll bridges queries w').1 := by
  induction queries generalizing w w' with
  | nil => exact .nil
  | cons q rest ih =>
      obtain ⟨halike, hnext⟩ := ask_alike h (hnames q List.mem_cons_self)
      exact .cons halike (ih (fun q' hq' => hnames q' (List.mem_cons_of_mem _ hq')) hnext)

end TypeQuery

/-- However many types several bridges were asked for on a stopped machine in which no request is
armed, no class is defined twice. A type that is loaded is found without an invocation, by its
signature. A type that was found has the signature of its name, and is found again under the same
identifier. A type is missed exactly if it is neither loaded, nor found by the program's loader, nor
can be defined from its class file. Then the query fails with the bridge's refusal. It names the
type as long as an array has room for the class file, and where the class files fail it is their
failure, whether it names the type or not. Whether and how later queries fail does not depend on a
query that failed, nor do the identifiers of the types that were loaded then. -/
theorem StreamProgram.Reachable.types_settled {p : StreamProgram} {r : Run Unit} (h : p.Reachable r)
    (hhalted : r.vm.Halted) (hrequests : r.vm.requests = [])
    (hbridges : ∀ i, (bridges i).thread = mainThread ∧
      (bridges i).frameClass = r.vm.appClass "Main")
    {states : ι → BridgeState} (hstates : ∀ i, (states i).Fits r.vm)
    {before later : List (TypeQuery ι)} {q : TypeQuery ι}
    (hbefore : ∀ q ∈ before, JavaType.IsTypeName q.name.toList)
    (hname : JavaType.IsTypeName q.name.toList)
    (hlater : ∀ q ∈ later, JavaType.IsTypeName q.name.toList) :
    let w := (TypeQuery.askAll bridges before { vm := r.vm, states }).2
    let a := (q.ask bridges w).1
    let w' := (q.ask bridges w).2
    (∀ className, w'.vm.timesDefined className ≤ 1) ∧
    (∀ c ∈ w.vm.classes, c.signature = typeNameToSignature q.name →
      a.result = .ok c.id ∧
        ∀ command ∈ a.sent, command = .classesBySignature (typeNameToSignature q.name)) ∧
    (∀ type, a.result = .ok type →
      (∃ c ∈ w'.vm.classes, c.id = type ∧ c.signature = typeNameToSignature q.name) ∧
        ∀ again : TypeQuery ι, again.name = q.name →
          (again.ask bridges (TypeQuery.askAll bridges later w').2).1.result = .ok type) ∧
    ((∃ type, a.result = .ok type) ↔ ¬(q.asker bridges).Misses w.vm q.name) ∧
    (∀ e, a.result = .error e ↔
      (q.asker bridges).Misses w.vm q.name ∧ e = (q.asker bridges).refusal q.name) ∧
    ((∀ bytes, q.files q.name = .ok (some bytes) → bytes.length < 2 ^ 31) →
      (∀ e, q.files q.name = .error e → ∃ reason, e = .valueInstantiation q.name reason) →
        ((∃ reason, a.result = .error (.valueInstantiation q.name reason)) ↔
          (q.asker bridges).Misses w.vm q.name)) ∧
    (∀ e, q.files q.name = .error e → (q.asker bridges).Misses w.vm q.name → a.result = .error e) ∧
    ((∀ type, a.result ≠ .ok type) →
      List.Forall₂ (TypeAnswer.Alike w.vm) (TypeQuery.askAll bridges later w').1
        (TypeQuery.askAll bridges later w).1) := by
  have hunarmed : ∀ {P : InstalledRequest → Prop}, ∀ q ∈ r.vm.requests, P q := by
    rw [hrequests]
    nofun
  have hstart : Bridged.Open bridges { vm := r.vm, states } := by
    refine ⟨h.intact, fun i => ?_, hunarmed⟩
    have hready := Bridge.ready_of_equipped (b := (bridges i).stocked) h.intact.toEquipped
      hhalted hunarmed (hbridges i).1 (hbridges i).2 rfl
    exact hready.learn (hstates i)
  intro w a w'
  obtain ⟨hopen, -⟩ : w.Open bridges ∧ _ := TypeQuery.askAll_open hbefore hstart
  obtain ⟨hopen', hextended, hsettles⟩ :
      w'.Open bridges ∧ w.vm.Extended w'.vm ∧ q.Outcome bridges w.vm w'.vm a.result :=
    TypeQuery.ask_outcome hopen hname
  -- The earlier queries only lead to an open state; all else is the outcome of this one.
  refine ⟨hopen'.intact.timesDefined_le, fun c hc hsignature =>
    TypeQuery.ask_loaded hopen hc hsignature, fun type htype => ?_, ?_, fun e => ?_,
    fun hfits hnamed => ?_, fun e hfile hmissed => ?_, fun hfails => ?_⟩
  · rw [htype] at hsettles
    cases hsettles with
    | @found c _ hc hsignature _ =>
        refine ⟨⟨c, hc, rfl, hsignature⟩, fun again hagain => ?_⟩
        obtain ⟨hlast, hextended'⟩ := TypeQuery.askAll_open hlater hopen'
        obtain ⟨c', hc', hstays⟩ := hextended'.classes c hc
        have hloaded : c'.signature = typeNameToSignature again.name := by
          rw [hstays.signature, hsignature, hagain]
        rw [(TypeQuery.ask_loaded hlast hc' hloaded).1, hstays.id]
  · generalize a.result = result at hsettles
    cases hsettles with
    | @found c hfound _ _ _ => exact ⟨fun _ => hfound, fun _ => ⟨c.id, rfl⟩⟩
    | missed hmisses _ => exact ⟨nofun, fun hfound => absurd hmisses hfound⟩
  · generalize a.result = result at hsettles
    cases hsettles with
    | found hfound _ _ _ => exact ⟨nofun, fun h => absurd h.1 hfound⟩
    | missed hmisses _ =>
        rw [Except.error.injEq]
        exact ⟨fun he => ⟨hmisses, he.symm⟩, fun h => h.2.symm⟩
  · generalize a.result = result at hsettles
    cases hsettles with
    | found hfound _ _ _ => exact ⟨nofun, fun hmisses => absurd hmisses hfound⟩
    | missed hmisses _ =>
        obtain ⟨reason, hreason⟩ := Bridge.refusal_reason (b := q.asker bridges) hfits hnamed
        exact ⟨fun _ => hmisses, fun _ => ⟨reason, congrArg _ hreason⟩⟩
  · generalize a.result = result at hsettles
    cases hsettles with
    | found hfound _ _ _ => exact absurd hmissed hfound
    | missed _ _ => exact congrArg _ (Bridge.refusal_of_error (b := q.asker bridges) hfile)
  · refine TypeQuery.askAll_alike hlater ⟨hopen', hopen, hextended, .refl hopen.intact.toEquipped,
      ?_⟩
    generalize a.result = result at hsettles hfails
    cases hsettles with
    | @found c _ _ _ _ => exact absurd rfl (hfails c.id)
    | missed _ hclasses => exact (signatures_of_classes hclasses).symm

/-- Two bridges that start from the program's class. One of them invokes without the other
threads. -/
def pairOfBridges (vm : Vm) (singleThreaded : Bool) : Bridge :=
  { thread := mainThread, frameClass := vm.appClass "Main", classFiles := HelperClass.files
    singleThreaded }

/-- A class that there is not, and for which there is no class file. -/
def strayQuery : TypeQuery Bool :=
  { bridge := false, name := "p.Stray", files := fun _ => .ok none }

theorem strayName_isTypeName : JavaType.IsTypeName strayQuery.name.toList :=
  .named _ (JavaType.isClassName_of_parts ["p".toList, "Stray".toList] (by decide) (by decide)
    (by decide))

def utilsQuery : TypeQuery Bool :=
  { bridge := true, name := HelperClass.utils.name, files := HelperClass.files }

def askedProgram : StreamProgram := StreamProgram.objects [.int 5]

theorem StreamProgram.Reachable.types_settled_of_utils : ∃ (r : Run Unit) (w w' : Bridged Bool)
    (type : TypeId), askedProgram.Reachable r ∧ r.vm.Halted ∧ r.vm.requests = [] ∧
    JavaType.IsTypeName strayQuery.name.toList ∧ JavaType.IsTypeName utilsQuery.name.toList ∧
    w = (TypeQuery.askAll (pairOfBridges r.vm) [strayQuery]
      { vm := r.vm, states := fun _ => {} }).2 ∧
    w' = (utilsQuery.ask (pairOfBridges r.vm) w).2 ∧
    w'.vm.timesDefined utilsQuery.name ≤ 1 ∧
    (utilsQuery.ask (pairOfBridges r.vm) w).1.result = .ok type ∧
    (∃ c ∈ w'.vm.classes, c.id = type ∧ c.signature = typeNameToSignature utilsQuery.name) ∧
    (utilsQuery.ask (pairOfBridges r.vm)
      (TypeQuery.askAll (pairOfBridges r.vm) [strayQuery] w').2).1.result = .ok type := by
  have hbegins := askedProgram.launch_atStatement.1
  have hreach : askedProgram.Reachable askedProgram.launch := .launch
  generalize askedProgram.launch = r at hbegins hreach
  have hhalted : r.vm.Halted := ⟨hbegins.alive, hbegins.suspended⟩
  have hutils : JavaType.IsTypeName utilsQuery.name.toList :=
    .named _ (JavaType.isClassName_of_parts
      ["nova".toList, "streamdebug".toList, "StreamDebuggerUtils".toList] (by decide) (by decide)
      (by decide))
  have hsingle : ∀ q ∈ [strayQuery], JavaType.IsTypeName q.name.toList := by
    rintro q hq
    rw [List.mem_singleton.mp hq]
    exact strayName_isTypeName
  have hdefines : (utilsQuery.asker (pairOfBridges r.vm)).Defines utilsQuery.name := by
    obtain ⟨bytes, hfile, hmagic, hbound⟩ := Bridge.files_fit .utils
    exact ⟨bytes, hfile, hbound, hmagic, by rw [utilsQuery, ofName?_name]; rfl⟩
  obtain ⟨hdefined, -, hagain, hfound, -⟩ :=
    StreamProgram.Reachable.types_settled (pairOfBridges r.vm) hreach hhalted hbegins.requests
      (fun _ => ⟨rfl, rfl⟩) (fun _ => BridgeState.fits_empty _) hsingle hutils hsingle
  obtain ⟨type, htype⟩ := hfound.mpr fun hmisses => hmisses.2 hdefines
  obtain ⟨hclass, hagain⟩ := hagain type htype
  exact ⟨r, _, _, type, hreach, hhalted, hbegins.requests, strayName_isTypeName, hutils, rfl, rfl,
    hdefined _,
    htype, hclass, hagain utilsQuery rfl⟩

/-- The same where the class files fail. -/
def failingQuery : TypeQuery Bool :=
  { strayQuery with files := fun _ => .error (.tracing "no class files") }

/-- The type is missed, and its name is not told. -/
theorem TypeQuery.ask_failing : ∃ r : Run Unit, askedProgram.Reachable r ∧ r.vm.Halted ∧
    r.vm.requests = [] ∧ JavaType.IsTypeName failingQuery.name.toList ∧
    (failingQuery.asker (pairOfBridges r.vm)).Misses r.vm failingQuery.name ∧
    ¬∃ reason, (failingQuery.ask (pairOfBridges r.vm)
      { vm := r.vm, states := fun _ => {} }).1.result =
        .error (.valueInstantiation failingQuery.name reason) := by
  have hbegins := askedProgram.launch_atStatement.1
  have hreach : askedProgram.Reachable askedProgram.launch := .launch
  have hlacks : askedProgram.launch.vm.Lacks failingQuery.name :=
    lacks_iff.mpr (by decide +kernel)
  generalize askedProgram.launch = r at hbegins hreach hlacks
  have hhalted : r.vm.Halted := ⟨hbegins.alive, hbegins.suspended⟩
  have hunarmed : ∀ {P : InstalledRequest → Prop}, ∀ q ∈ r.vm.requests, P q := by
    rw [hbegins.requests]
    nofun
  have hmisses : (failingQuery.asker (pairOfBridges r.vm)).Misses r.vm failingQuery.name := by
    refine ⟨⟨hlacks, ?_⟩, fun ⟨bytes, hbytes, _⟩ => nomatch hbytes⟩
    have hlookup : lookupName failingQuery.name = failingQuery.name := by decide
    rw [hlookup, findClass_plain_missing hreach.intact.toEquipped (by decide) hlacks]
  have hopen : Bridged.Open (pairOfBridges r.vm) { vm := r.vm, states := fun _ => {} } := by
    refine ⟨hreach.intact, fun i => ?_, hunarmed⟩
    exact (Bridge.ready_of_equipped hreach.intact.toEquipped hhalted hunarmed rfl rfl rfl).learn
      (BridgeState.fits_empty _)
  -- The outcome is the bridge's refusal, and that is the failure of the class files.
  obtain ⟨-, -, hsettles⟩ :=
    TypeQuery.ask_outcome (q := failingQuery) hopen strayName_isTypeName
  refine ⟨r, hreach, hhalted, hbegins.requests, strayName_isTypeName, hmisses, ?_⟩
  rintro ⟨reason, hreason⟩
  rw [hreason] at hsettles
  have hrefusal : (failingQuery.asker (pairOfBridges r.vm)).refusal failingQuery.name =
      .tracing "no class files" := Bridge.refusal_of_error rfl
  generalize hresult : Except.error (TraceError.valueInstantiation failingQuery.name reason)
    = result at hsettles
  cases hsettles with
  | found => cases hresult
  | missed =>
      rw [hrefusal] at hresult
      cases hresult

end StreamTrace
