import StreamTrace.Machine.Vm
import StreamTrace.HelperClass

/-!
# The classes at the start

The library classes of the simulated virtual machine and the class of its program, in the order in
which they are loaded.
-/

namespace StreamTrace

/-- A method as it is declared: name, descriptor, and whether it is static. -/
abbrev MethodSpec := String × String × Bool

structure ClassSpec where
  name : String
  superclass : Option String := some ClassName.object
  interfaces : List String := []
  isInterface : Bool := false
  isAbstract : Bool := false
  methods : List MethodSpec := []

/-- The interfaces that lambdas implement, each with the name and the descriptor of its method. -/
def lambdaInterfaces : List (String × String × String) :=
  [("java.util.function.Predicate", "test", "(Ljava/lang/Object;)Z"),
    ("java.util.function.Function", "apply", "(Ljava/lang/Object;)Ljava/lang/Object;"),
    ("java.util.function.Consumer", "accept", "(Ljava/lang/Object;)V"),
    ("java.util.function.IntPredicate", "test", "(I)Z"),
    ("java.util.function.IntUnaryOperator", "applyAsInt", "(I)I"),
    ("java.util.function.IntConsumer", "accept", "(I)V")]

/-- The methods that a stream interface declares, each with its descriptor. -/
def streamMethods : ElementType → List (String × String)
  | .int =>
    [("filter", "(Ljava/util/function/IntPredicate;)Ljava/util/stream/IntStream;"),
      ("map", "(Ljava/util/function/IntUnaryOperator;)Ljava/util/stream/IntStream;"),
      ("peek", "(Ljava/util/function/IntConsumer;)Ljava/util/stream/IntStream;"),
      ("parallel", "()Ljava/util/stream/IntStream;"),
      ("count", "()J"),
      ("anyMatch", "(Ljava/util/function/IntPredicate;)Z"),
      ("findFirst", "()Ljava/util/OptionalInt;"),
      ("forEach", "(Ljava/util/function/IntConsumer;)V")]
  | _ =>
    [("filter", "(Ljava/util/function/Predicate;)Ljava/util/stream/Stream;"),
      ("map", "(Ljava/util/function/Function;)Ljava/util/stream/Stream;"),
      ("peek", "(Ljava/util/function/Consumer;)Ljava/util/stream/Stream;"),
      ("count", "()J"),
      ("anyMatch", "(Ljava/util/function/Predicate;)Z"),
      ("findFirst", "()Ljava/util/Optional;"),
      ("toList", "()Ljava/util/List;"),
      ("forEach", "(Ljava/util/function/Consumer;)V")]

/-- The part of a class name behind its last dot. -/
def simpleName (name : String) : String :=
  String.ofList (name.toList.reverse.takeWhile (· ≠ '.')).reverse

/-- The class of the program's lambdas for a functional interface. -/
def lambdaClass (interface : String) : String := s!"Main$$Lambda${simpleName interface}"

def baseStreamMethods : List MethodSpec :=
  [("sequential", "()Ljava/util/stream/BaseStream;", false),
    ("parallel", "()Ljava/util/stream/BaseStream;", false)]

def instanceMethods (methods : List (String × String)) : List MethodSpec :=
  methods.map fun (name, descriptor) => (name, descriptor, false)

namespace Vm

def declareMethods (isAbstract : Bool) : List MethodSpec → StateM Vm (List MethodDef)
  | [] => return []
  | (name, descriptor, isStatic) :: rest => do
    let id ← freshId
    return { id, name, descriptor, isStatic, isAbstract } :: (← declareMethods isAbstract rest)

/-- Defines a class in a loader. What it names above itself is looked up among the classes that
the loader sees. -/
def define (loader : ObjectId) (spec : ClassSpec) : StateM Vm TypeId := do
  let id ← freshId
  let classes := (← get).classes
  let methods ← declareMethods spec.isAbstract spec.methods
  let c : ClassDef :=
    { id, name := spec.name, signature := typeNameToSignature spec.name
      isInterface := spec.isInterface
      superclass := spec.superclass.bind fun name => classes.named? name loader
      interfaces := spec.interfaces.filterMap fun name => classes.named? name loader
      methods, loader }
  modify fun vm => { vm with classes := vm.classes ++ [c] }
  return id

def defineAll (loader : ObjectId) (specs : List ClassSpec) : StateM Vm Unit :=
  specs.forM fun spec => do let _ ← define loader spec

/-- The classes up to the loader's own. -/
def loaderSpecs : List ClassSpec :=
  [{ name := ClassName.object, superclass := none, methods := [("<init>", "()V", false)] },
    { name := ClassName.classClass
      methods :=
        [("forName", "(Ljava/lang/String;ZLjava/lang/ClassLoader;)Ljava/lang/Class;", true)] },
    { name := "java.lang.ClassLoader"
      methods := [("defineClass", "(Ljava/lang/String;[BII)Ljava/lang/Class;", false)] }]

def loaderSpec : ClassSpec :=
  { name := "jdk.internal.loader.ClassLoaders$AppClassLoader"
    superclass := some "java.lang.ClassLoader" }

/-- Strings, boxes and exceptions. -/
def languageSpecs : List ClassSpec :=
  [{ name := ClassName.string, methods := [("length", "()I", false)] },
    { name := "java.lang.Integer", methods := [("intValue", "()I", false)] },
    { name := "java.lang.Long" },
    { name := "java.lang.Double" },
    { name := "java.lang.Boolean" },
    { name := ClassName.throwable },
    { name := "java.lang.Exception", superclass := some ClassName.throwable },
    { name := "java.lang.RuntimeException", superclass := some "java.lang.Exception" },
    { name := "java.lang.IllegalStateException"
      superclass := some "java.lang.RuntimeException" },
    { name := "java.lang.NullPointerException", superclass := some "java.lang.RuntimeException" },
    { name := ClassName.classNotFound, superclass := some "java.lang.Exception" },
    { name := "java.lang.LinkageError", superclass := some ClassName.throwable },
    { name := "java.lang.ClassFormatError", superclass := some "java.lang.LinkageError" }]

/-- Collections and what else streams need. -/
def collectionSpecs : List ClassSpec :=
  [{ name := ClassName.map, superclass := none, isInterface := true },
    { name := ClassName.linkedHashMap, interfaces := [ClassName.map]
      methods := [("<init>", "()V", false)] },
    { name := ClassName.atomicInteger
      methods :=
        [("<init>", "()V", false), ("<init>", "(I)V", false), ("get", "()I", false),
          ("incrementAndGet", "()I", false)] },
    { name := "java.util.Collection", superclass := none, isInterface := true
      methods := [("stream", "()Ljava/util/stream/Stream;", false)] },
    { name := "java.util.List", superclass := none, isInterface := true
      interfaces := ["java.util.Collection"] },
    { name := "java.util.ArrayList", interfaces := ["java.util.List"]
      methods := [("size", "()I", false)] },
    { name := "java.util.Optional"
      methods :=
        [("isPresent", "()Z", false),
          ("orElse", "(Ljava/lang/Object;)Ljava/lang/Object;", false)] },
    { name := "java.util.OptionalInt"
      methods := [("isPresent", "()Z", false), ("orElse", "(I)I", false)] }]

/-- An interface whose methods have no code. -/
def abstractSpec (name : String) (interfaces : List String) (methods : List MethodSpec) :
    ClassSpec :=
  { name, superclass := none, isInterface := true, isAbstract := true, interfaces, methods }

def functionalSpecs : List ClassSpec :=
  lambdaInterfaces.map fun (name, method, descriptor) =>
    abstractSpec name [] [(method, descriptor, false)]

def streamSpecs : List ClassSpec :=
  [abstractSpec "java.util.stream.BaseStream" [] baseStreamMethods,
    abstractSpec ElementType.object.streamType ["java.util.stream.BaseStream"]
      (instanceMethods (streamMethods .object)),
    abstractSpec ElementType.int.streamType ["java.util.stream.BaseStream"]
      (instanceMethods (streamMethods .int)),
    { name := "java.util.stream.AbstractPipeline", interfaces := ["java.util.stream.BaseStream"]
      methods := baseStreamMethods },
    { name := "java.util.stream.ReferencePipeline"
      superclass := some "java.util.stream.AbstractPipeline"
      interfaces := [ElementType.object.streamType]
      methods := instanceMethods (streamMethods .object) },
    { name := "java.util.stream.IntPipeline"
      superclass := some "java.util.stream.AbstractPipeline"
      interfaces := [ElementType.int.streamType]
      methods := instanceMethods (streamMethods .int) }]

/-- The classes of the program. -/
def programSpecs : List ClassSpec :=
  lambdaInterfaces.map (fun (name, method, descriptor) =>
    { name := lambdaClass name, interfaces := [name]
      methods := [(method, descriptor, false)] })
  ++ [{ name := "Main"
        methods := [("main", "([Ljava/lang/String;)V", true), ("run", "()V", false)] }]

/-- The components of the arrays that are known from the start. -/
def arrayComponents : List String := ["B", "I", "J", "D", "Z", "Ljava/lang/Object;"]

/-- Loads all classes and makes the program's loader. -/
def boot : StateM Vm Unit := do
  defineAll 0 loaderSpecs
  let loaderType ← define 0 loaderSpec
  let appLoader ← alloc loaderType .classLoader
  modify fun vm => { vm with appLoader }
  defineAll 0 languageSpecs
  arrayComponents.forM fun component => do let _ ← declareArray component
  defineAll 0 collectionSpecs
  defineAll 0 functionalSpecs
  defineAll 0 streamSpecs
  defineAll appLoader programSpecs

/-- A machine with its classes loaded and nothing on its thread. -/
def booted : Vm := ((boot.run {}).2)

end Vm

end StreamTrace
