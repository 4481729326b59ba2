import ShaderComposer.Stack

/-!
# The journal

What is reported while shaders are composed: one entry when a list begins, one
for each part that is sound, one when the list is done, and for a stack how its
effects were grouped.  An entry is written only for what really happened, so the
journal of a composition that fails ends at the fault.
-/

namespace ShaderComposer

inductive Level where
  | trace
  | debug
  | warn
deriving DecidableEq

def Level.name : Level → String
  | trace => "TRACE"
  | debug => "DEBUG"
  | warn => "WARN"

structure Entry where
  level : Level
  text : String
deriving DecidableEq

namespace Entry

def line (entry : Entry) : String :=
  entry.level.name ++ " " ++ entry.text

def truth : Bool → String
  | true => "true"
  | false => "false"

def began (setting : Setting) (passes : List Pass) : Entry where
  level := .debug
  text :=
    "[stitch] list " ++ toString setting.listIndex ++ " dialect=" ++ setting.dialect.name ++
      " effects=" ++ toString passes.length ++ " first_shader=" ++ toString setting.startIndex

def renamed (setting : Setting) (stage : Stage) (link : Link) : Entry where
  level := .trace
  text :=
    let part := (setting.mangling stage link).part link.part
    "[stitch] " ++ setting.stemAt link.position ++ " " ++ stage.name ++
      ": functions=" ++ toString part.functions.length ++
      " calls=" ++ toString part.calls.length ++
      " temporaries=" ++ toString part.temporaries.length ++
      " chained=" ++ truth link.previous.isSome

def finished (setting : Setting) (shader : Shader) : Entry where
  level := .debug
  text :=
    "[stitch] list " ++ toString setting.listIndex ++
      " done: vertex_bindings=" ++ toString shader.vertex.bindings.length ++
      " fragment_bindings=" ++ toString shader.fragment.bindings.length ++
      " parameters=" ++ toString shader.parameters.length

def skipped (effect : Effect) : Entry where
  level := .warn
  text := "[stack] effect " ++ effect.name ++ " produced no passes; skipping"

def grouped (effects lists : Nat) (dialect : Dialect) : Entry where
  level := .debug
  text :=
    "[stack] " ++ toString effects ++ " effects -> " ++ toString (max lists 1) ++
      " passes (" ++ dialect.name ++ ")"

end Entry

namespace Setting

variable (setting : Setting)

/-- The links of both stages in the order they are looked at. -/
def visits (passes : List Pass) : List (Stage × Link) :=
  let vertex := setting.links .vertex passes
  let fragment := setting.links .fragment passes
  (List.range passes.length).flatMap fun position =>
    ((vertex.filter fun link => link.position = position).map fun link => (.vertex, link)) ++
      ((fragment.filter fun link => link.position = position).map fun link => (.fragment, link))

def journal (passes : List Pass) : List Entry :=
  let sound :=
    (setting.visits passes).takeWhile fun (stage, link) =>
      (link.part.fault? (setting.stemAt link.position) stage).isNone
  [Entry.began setting passes] ++
    sound.map (fun (stage, link) => Entry.renamed setting stage link) ++
    match setting.compose passes with
    | .ok shader => [Entry.finished setting shader]
    | .error _ => []

end Setting

namespace EffectStack

def groupingJournal (stack : EffectStack) (dialect : Dialect) : List Entry :=
  (stack.effects.filter fun effect => (effect.passes dialect).isEmpty).map Entry.skipped

/-- The entries of the lists in order, up to the first that fails. -/
def journalFrom (dialect : Dialect) (stem : String) : Nat → Nat → List (List Pass) → List Entry
  | _, _, [] => []
  | listIndex, startIndex, passes :: rest =>
    let setting : Setting := ⟨dialect, stem, listIndex, startIndex⟩
    setting.journal passes ++
      match setting.compose passes with
      | .ok _ => journalFrom dialect stem (listIndex + 1) (startIndex + passes.length) rest
      | .error _ => []

def journal (stack : EffectStack) (dialect : Dialect) : List Entry :=
  let lists := stack.lists dialect
  let composed := if lists.isEmpty then [[]] else lists
  stack.groupingJournal dialect ++
    [Entry.grouped stack.effects.length lists.length dialect] ++
    journalFrom dialect stack.stem 0 0 composed

end EffectStack

end ShaderComposer
