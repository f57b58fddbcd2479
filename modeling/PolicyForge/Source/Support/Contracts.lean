/-!
# The interfaces of policies

What the generated code promises about a policy and about an element of it.
-/
namespace PolicyForge.Source.Support

def contractLines : List String := [
  "/// <summary>",
  "/// A configurable value slot of a policy.",
  "/// </summary>",
  "public interface IPolicyElement",
  "\x7b",
  "    string Id \x7b get; \x7d",
  "",
  "    /// <summary>",
  "    /// Registry key the element writes under; already resolved against the policy key.",
  "    /// </summary>",
  "    string Key \x7b get; \x7d",
  "",
  "    string ValueName \x7b get; \x7d",
  "",
  "    object Convert(object value);",
  "\x7d",
  "",
  "/// <summary>",
  "/// An administrative policy.",
  "/// </summary>",
  "public interface IPolicy",
  "\x7b",
  "    PolicyClass Class \x7b get; \x7d",
  "",
  "    string Key \x7b get; \x7d",
  "",
  "    string ValueName \x7b get; \x7d",
  "",
  "    object EnabledValue \x7b get; \x7d",
  "",
  "    object DisabledValue \x7b get; \x7d",
  "",
  "    string DisplayName \x7b get; \x7d",
  "",
  "    string ResourceId \x7b get; \x7d",
  "",
  "    string SupportedOn \x7b get; \x7d",
  "",
  "    IReadOnlyList<IPolicyElement> Elements \x7b get; \x7d",
  "",
  "    bool AppliesTo(PolicyScope scope);",
  "\x7d"]

end PolicyForge.Source.Support
