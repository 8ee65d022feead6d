namespace TaskGraph

/-- How much a log line matters. -/
inductive Level where
  | debug
  | info
  | warn
  | error
  deriving DecidableEq

def Level.name : Level → String
  | debug => "DEBUG"
  | info => "INFO"
  | warn => "WARN"
  | error => "ERROR"

/-- One line of a log. -/
structure LogLine where
  level : Level
  text : String
  deriving DecidableEq

def LogLine.render (line : LogLine) : String := line.level.name ++ " " ++ line.text

/-- A value together with the lines that were logged on the way to it, oldest first. What was
    logged before a failure stays logged. -/
structure Logged (α : Type) where
  value : α
  log : List LogLine

namespace Logged

instance : Monad Logged where
  pure a := ⟨a, []⟩
  bind x f :=
    let y := f x.value
    ⟨y.value, x.log ++ y.log⟩

@[simp] theorem value_pure {α : Type} (a : α) : (pure a : Logged α).value = a := rfl

@[simp] theorem log_pure {α : Type} (a : α) : (pure a : Logged α).log = [] := rfl

@[simp] theorem value_bind {α β : Type} (x : Logged α) (f : α → Logged β) :
    (x >>= f).value = (f x.value).value := rfl

@[simp] theorem log_bind {α β : Type} (x : Logged α) (f : α → Logged β) :
    (x >>= f).log = x.log ++ (f x.value).log := rfl

@[ext] theorem ext {α : Type} {x y : Logged α} (hvalue : x.value = y.value) (hlog : x.log = y.log) :
    x = y := by
  cases x
  cases y
  simp_all

@[simp] theorem value_map {α β : Type} (f : α → β) (x : Logged α) :
    (f <$> x).value = f x.value := rfl

@[simp] theorem log_map {α β : Type} (f : α → β) (x : Logged α) : (f <$> x).log = x.log := by
  simp [Functor.map]

instance : LawfulMonad Logged :=
  LawfulMonad.mk' _
    (fun _ => by simp [Functor.map])
    (fun _ _ => by simp [Pure.pure, Bind.bind])
    (fun _ _ _ => by simp [Bind.bind, List.append_assoc])

def line (level : Level) (text : String) : Logged Unit := ⟨(), [⟨level, text⟩]⟩

end Logged

end TaskGraph
