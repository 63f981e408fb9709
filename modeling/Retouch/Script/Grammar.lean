import Retouch.Script.Classes
import Retouch.Script.Elements
import Retouch.Script.Run
import Retouch.Script.Statements

/-!
# The grammar

All rules together, and the reading of a whole script: `parse` gives its markup, or what is wrong
with it.

`parse` tells where the markup of a script stands, and does not check everything that a script has to
satisfy. It accepts two exports under one name, a constructor that is asynchronous, a generator or an
accessor, a second constructor, and modifiers that are repeated or contradict each other.
-/

namespace Retouch.Script

/-- The program of each rule. -/
def grammar (c : Ctx) : (r : Rule) → Prog r.Result
  | .list item close => listRule c item close
  | .listFrom item close => listFromRule c item close
  | .statements inCase => statementsRule c inCase
  | .statement single => statementRule c single
  | .block => blockRule c
  | .functionBody => functionBodyRule c
  | .declarators isConst => declaratorsRule c isConst
  | .switchCases => switchCasesRule c
  | .expression => expressionRule c
  | .expressionRest first => expressionRestRule c first
  | .assignment returnType => assignmentRule c returnType
  | .plainAssignment => assignmentRule c true
  | .binary least => binaryRule c least
  | .binaryRest least left => binaryRestRule c least left
  | .unary => unaryRule c
  | .simpleUnary => simpleUnaryRule c
  | .leftHand => leftHandRule c
  | .primary => primaryRule c
  | .memberRest chain allowChain e => memberRestRule c chain allowChain e
  | .callRest chain e => callRestRule c chain e
  | .argument => argumentRule c
  | .arrayItems => arrayItemsRule c
  | .objectItems => objectItemsRule c
  | .templateRest tagged => templateRestRule c tagged
  | .pattern => patternRule c
  | .patternElement => patternElementRule c
  | .patternProperty => patternPropertyRule c
  | .patternItems => patternItemsRule c
  | .patternProperties => patternPropertiesRule c
  | .parameters => parametersRule c
  | .functionType => functionTypeRule c
  | .dotted => dottedRule c
  | .parameterItems => parameterItemsRule c
  | .arrowHead returnType => arrowHeadRule c returnType
  | .arrowWhole => arrowWholeRule c
  | .arrowBody head returnType => arrowBodyRule c head returnType
  | .function role async => functionRule c role async
  | .methodRest async generator => methodRestRule c async generator
  | .classRest => classRestRule c
  | .heritage => heritageRule c
  | .classMembers => classMembersRule c
  | .classMember => classMemberRule c
  | .decorators => decoratorsRule c
  | .type => typeRule c
  | .unionType => unionTypeRule c
  | .unionRest mark => unionRestRule c mark
  | .operatorType => operatorTypeRule c
  | .postfixType => postfixTypeRule c
  | .postfixRest => postfixRestRule c
  | .typeArguments => typeArgumentsRule c
  | .callTypeArguments => callTypeArgumentsRule c
  | .inferConstraint => inferConstraintRule c
  | .typeParameter => typeParameterRule c
  | .typeMembers => typeMembersRule c
  | .tupleItem => tupleItemRule c
  | .enumItem => enumItemRule c
  | .heritageType => heritageTypeRule c
  | .returnType mark => returnTypeRule c mark
  | .typeTemplateRest => typeTemplateRestRule c
  | .element between => elementRule c between
  | .children => childrenRule c
  | .attributes => attributesRule c
  | .tagMembers written => tagMembersRule c written
  | .declaration => declarationRule c
  | .importSpecifier => importSpecifierRule c
  | .exportSpecifiers => exportSpecifiersRule c
  | .importAttribute => importAttributeRule c

/-- How deep rules may be nested in a text of so many characters. Between two tokens no more than a
few dozen rules are entered. -/
def depthFor (characters : Nat) : Nat := 64 * (characters + 4)

/-- The rule for a whole script. -/
def script (typed : Bool) : Prog Unit := do
  skip (.start typed) (.statements false)
  if (← kind) == .endOfSource then return () else unexpected

/-- The markup of a script, or what is wrong with it. Types may be written if `typed`. -/
def parse (typed : Bool) (source : Text) : Except Faults (List Markup) :=
  match (script typed).run (runRule grammar (depthFor source.length)) (.start source) with
  | .done _ st =>
    match faultsOfEnd? st with
    | some faults => .error faults
    | none => .ok st.found.reverse
  | .stopped d st => .error (faultsOfStop d st)

end Retouch.Script
