import StreamTrace.Bytes
import StreamTrace.Trace.Error

/-!
# Classes by name

The library classes that a trace uses in the debuggee, and the helper classes that it defines
there: a collector that records elements in a map, matchers that wrap a predicate, and utilities
that turn such maps into arrays.
-/

namespace StreamTrace

namespace ClassName

def object : String := "java.lang.Object"
def string : String := "java.lang.String"
def throwable : String := "java.lang.Throwable"
def classClass : String := "java.lang.Class"
def classNotFound : String := "java.lang.ClassNotFoundException"
def linkedHashMap : String := "java.util.LinkedHashMap"
def map : String := "java.util.Map"
def atomicInteger : String := "java.util.concurrent.atomic.AtomicInteger"
def predicate : String := "java.util.function.Predicate"

end ClassName

inductive HelperClass where
  | utils
  | collector
  | objectMatcher
  | intMatcher
  | longMatcher
  | doubleMatcher
  deriving Repr, DecidableEq

namespace HelperClass

def all : List HelperClass :=
  [utils, collector, objectMatcher, intMatcher, longMatcher, doubleMatcher]

def name : HelperClass → String
  | utils => "nova.streamdebug.StreamDebuggerUtils"
  | collector => "nova.streamdebug.UniversalCollector"
  | objectMatcher => "nova.streamdebug.ObjectMatcher"
  | intMatcher => "nova.streamdebug.IntMatcher"
  | longMatcher => "nova.streamdebug.LongMatcher"
  | doubleMatcher => "nova.streamdebug.DoubleMatcher"

def ofName? (name : String) : Option HelperClass := all.find? (·.name == name)

/-- The constructor of a collector. It takes a map, which may be null, the clock, and whether each
element advances the clock. -/
def collectorConstructor : String :=
  "(Ljava/util/Map;Ljava/util/concurrent/atomic/AtomicInteger;Z)V"

/-- The methods that turn a map into an array of its keys and an array of its values. -/
def formatDescriptor : String := "(Ljava/util/Map;)[Ljava/lang/Object;"

/-- The constructor of a matcher for predicates of the given internal class name. It takes a map
for the tested elements, one for the matches, the clock and the predicate. -/
def matcherConstructor (predicate : String) : String :=
  s!"(Ljava/util/Map;Ljava/util/Map;Ljava/util/concurrent/atomic/AtomicInteger;L{predicate};)V"

/-- The matcher that wraps predicates of that type, with its constructor. -/
def matcherFor? : String → Option (HelperClass × String)
  | "java.util.function.Predicate" =>
    some (objectMatcher, matcherConstructor "java/util/function/Predicate")
  | "java.util.function.IntPredicate" =>
    some (intMatcher, matcherConstructor "java/util/function/IntPredicate")
  | "java.util.function.LongPredicate" =>
    some (longMatcher, matcherConstructor "java/util/function/LongPredicate")
  | "java.util.function.DoublePredicate" =>
    some (doubleMatcher, matcherConstructor "java/util/function/DoublePredicate")
  | _ => none

end HelperClass

/-- Where the bytes of class files come from: the bytes of a class, nothing for a class without
file, or any failure of its own. -/
abbrev ClassFiles := String → Except TraceError (Option Bytes)

/-- No class has a file. -/
def ClassFiles.none : ClassFiles := fun _ => .ok .none

end StreamTrace
