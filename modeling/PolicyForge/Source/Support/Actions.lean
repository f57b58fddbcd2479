/-!
# Applying policies

How a policy is enabled, disabled or left alone in a policy object.
-/
namespace PolicyForge.Source.Support

def actionLines : List String := [
  "/// <summary>",
  "/// Applies policy states to a group policy object.",
  "/// </summary>",
  "public static class PolicyMethods",
  "\x7b",
  "    public static void Enable(this GroupPolicyObject gpo, IPolicy policy, PolicyScope scope, " ++
      "IDictionary<string, object> values = null)",
  "    \x7b",
  "        gpo.SetState(policy, scope, PolicyState.Enabled, values);",
  "    \x7d",
  "",
  "    public static void Disable(this GroupPolicyObject gpo, IPolicy policy, PolicyScope scope)",
  "    \x7b",
  "        gpo.SetState(policy, scope, PolicyState.Disabled, null);",
  "    \x7d",
  "",
  "    public static void Reset(this GroupPolicyObject gpo, IPolicy policy, PolicyScope scope)",
  "    \x7b",
  "        gpo.SetState(policy, scope, PolicyState.NotConfigured, null);",
  "    \x7d",
  "",
  "    public static void SetState(this GroupPolicyObject gpo, IPolicy policy, PolicyScope scope, " ++
      "PolicyState state, IDictionary<string, object> values)",
  "    \x7b",
  "        if (gpo == null)",
  "            throw new ArgumentNullException(nameof(gpo));",
  "        if (policy == null)",
  "            throw new ArgumentNullException(nameof(policy));",
  "        if (!policy.AppliesTo(scope))",
  "            throw new InvalidOperationException(\"Policy '\" + policy.DisplayName + \"' does " ++
      "not apply to the \" + scope + \" scope.\");",
  "",
  "        var root = gpo.OpenRegistryRoot(scope);",
  "        try",
  "        \x7b",
  "            using (var writer = new PolicyRegistryWriter(root))",
  "            \x7b",
  "                switch (state)",
  "                \x7b",
  "                    case PolicyState.Enabled:",
  "                        if (!string.IsNullOrEmpty(policy.ValueName))",
  "                            writer.Write(policy.Key, policy.ValueName, policy.EnabledValue);",
  "                        foreach (var element in policy.Elements)",
  "                        \x7b",
  "                            object value;",
  "                            if (values == null || !values.TryGetValue(element.Id, out value))",
  "                                continue;",
  "                            WriteElement(writer, policy, element, element.Convert(value));",
  "                        \x7d",
  "                        break;",
  "",
  "                    case PolicyState.Disabled:",
  "                        if (!string.IsNullOrEmpty(policy.ValueName))",
  "                            writer.Write(policy.Key, policy.ValueName, policy.DisabledValue);",
  "                        ClearElements(writer, policy);",
  "                        break;",
  "",
  "                    default:",
  "                        if (!string.IsNullOrEmpty(policy.ValueName))",
  "                            writer.Delete(policy.Key, policy.ValueName);",
  "                        ClearElements(writer, policy);",
  "                        break;",
  "                \x7d",
  "            \x7d",
  "            gpo.Save(scope);",
  "        \x7d",
  "        finally",
  "        \x7b",
  "            NativeMethods.RegCloseKey(root);",
  "        \x7d",
  "    \x7d",
  "",
  "    private static void WriteElement(PolicyRegistryWriter writer, IPolicy policy, " ++
      "IPolicyElement element, object payload)",
  "    \x7b",
  "        var list = element as ListElement;",
  "        var entries = payload as IDictionary<string, string>;",
  "        if (list != null && entries != null)",
  "        \x7b",
  "            // Replacing a list must not wipe the policy's own key.",
  "            if (!list.Additive && !PolicyHelpers.SameKey(list.Key, policy.Key))",
  "                writer.DeleteTree(list.Key);",
  "            writer.WriteEntries(list.Key, entries, list.Expandable);",
  "            return;",
  "        \x7d",
  "        writer.Write(element.Key, element.ValueName, payload);",
  "    \x7d",
  "",
  "    private static void ClearElements(PolicyRegistryWriter writer, IPolicy policy)",
  "    \x7b",
  "        foreach (var element in policy.Elements)",
  "        \x7b",
  "            if (element is ListElement list)",
  "            \x7b",
  "                if (!PolicyHelpers.SameKey(list.Key, policy.Key))",
  "                    writer.DeleteTree(list.Key);",
  "            \x7d",
  "            else",
  "                writer.Delete(element.Key, element.ValueName);",
  "        \x7d",
  "    \x7d",
  "\x7d"]

end PolicyForge.Source.Support
