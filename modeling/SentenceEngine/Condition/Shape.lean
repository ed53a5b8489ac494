import SentenceEngine.Condition.Basic
import SentenceEngine.Schema.Basic

/-!
# The shape of conditions

A schema that describes conditions through themselves: a group is a condition or a list of
conditions, and an expected value is any value, lists and objects being made of expected values.
-/

namespace SentenceEngine.Condition

/-- The name of the node that describes a condition. -/
def conditionName : String := "where_base"

/-- The name of the node that describes an expected value. -/
def valueName : String := "value_base"

/-- What stands under `@and` or `@or`. -/
def groupSchema : Schema :=
  (Schema.alternatives [.array (.reference conditionName), .reference conditionName]).asOptional

/-- What a variable is compared with. -/
def valueSchema : Schema :=
  (Schema.alternatives
    [.array (.reference valueName),
      Schema.object.withDynamicKeys.withRest (.reference valueName),
      .string, .number, .null, .boolean]).named valueName

/-- A condition. -/
def schema : Schema :=
  ((((Schema.object.named conditionName).withDynamicKeys.withField Mode.all.key groupSchema)
    ).withField Mode.some.key groupSchema).withRest valueSchema

end SentenceEngine.Condition
